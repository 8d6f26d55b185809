import RemoteShell.Proofs.Text.Capitals
import RemoteShell.Proofs.Text.Lines

/-!
# What cleaning does to output

The output of a terminal begins with the line on which the password was asked for, and goes on with
what the command printed.  Cleaning takes the first line out, but it looks for prompts on every line
of the output, so that it comes to the same as the output only if no line of it passes for a prompt.
This module says exactly which lines do, and which lines cannot be cleaned at all.

A prompt is looked for in the lower case of a line, up to the byte where the first colon of the line
itself stands.  The two differ only where a capital takes another number of bytes than its small
letter.

## Main definitions

* `Asks`, `Label`, `Skewed`, `Plain`: lines that ask for a password, the part of a line that is
  searched, lines without such a part, and lines that stay as they are
* `Garbled`: outputs with a skewed line
* `Prompt`, `transcript`: a prompt, and what a command printed behind it, as a terminal writes them

## Main results

* `cleanLine_cases`: what becomes of a line
* `cleaned?_eq_none_iff`, `Garbled.exists_uneven`: which outputs cannot be cleaned
* `plain_iff_of_even`: which lines stay as they are, if capitals keep their number of bytes
* `cleaned_transcript_iff`: when cleaning comes to the output of the command
-/

namespace RemoteShell.Terminal

open Text

variable {line head before after s t : List Char} {ls ks : List (List Char)} {n : Nat}

/-! ## Bytes -/

theorem width_append (s t : List Char) : width (s ++ t) = width s + width t := by
  induction s with
  | nil => exact (Nat.zero_add _).symm
  | cons c s ih => rw [List.cons_append, width, width, ih, Nat.add_assoc]

theorem eq_nil_of_width (h : width s = 0) : s = [] := by
  cases s with
  | nil => rfl
  | cons c s =>
    have hpos : 0 < c.utf8Size := Char.utf8Size_pos c
    rw [width] at h
    omega

/-- **A cut is made between two characters.** -/
theorem cutAt_eq_some_iff : cutAt n s = some head ↔ head <+: s ∧ width head = n := by
  induction s generalizing n head with
  | nil =>
    cases n with
    | zero => simpa [cutAt, eq_comm] using fun h : head = [] => h ▸ rfl
    | succ n => simpa [cutAt] using fun h : head = [] => h ▸ (Nat.succ_ne_zero n).symm
  | cons c s ih =>
    have hpos : 0 < c.utf8Size := Char.utf8Size_pos c
    cases n with
    | zero =>
      refine ⟨fun h => ?_, fun h => ?_⟩
      · obtain rfl := Option.some.inj h
        exact ⟨List.nil_prefix, rfl⟩
      · rw [eq_nil_of_width h.2, cutAt]
    | succ n =>
      rw [cutAt, Option.ite_none_right_eq_some, Option.map_eq_some_iff]
      constructor
      · rintro ⟨hle, head, hcut, rfl⟩
        obtain ⟨hbegins, hwidth⟩ := ih.mp hcut
        refine ⟨List.cons_prefix_cons.mpr ⟨rfl, hbegins⟩, ?_⟩
        rw [width, hwidth]
        omega
      · rintro ⟨hbegins, hwidth⟩
        cases head with
        | nil => exact absurd hwidth (Nat.succ_ne_zero n).symm
        | cons d head =>
          obtain ⟨rfl, hrest⟩ := List.cons_prefix_cons.mp hbegins
          rw [width] at hwidth
          exact ⟨by omega, head, ih.mpr ⟨hrest, by omega⟩, rfl⟩

/-! ## Lines -/

theorem visible_word : Visible word := by decide

/-- **A line asks for a password**: the word stands in it, in letters of either case, and it ends
with a colon. -/
def Asks (line : List Char) : Prop :=
  word <:+: lowered (trimmed line) ∧ (trimmed line).getLast? = some ':'

/-- **What is searched of a line**: of its lower case, the beginning that takes as many bytes as
stand before the first colon of the line. -/
def Label (line head : List Char) : Prop :=
  ∃ before after, trimmed line = before ++ ':' :: after ∧ ':' ∉ before ∧
    head <+: lowered (trimmed line) ∧ width head = width before

/-- **A skewed line**: no beginning of its lower case takes as many bytes as stand before its first
colon. -/
def Skewed (line : List Char) : Prop :=
  ¬ Asks line ∧ ':' ∈ trimmed line ∧ ∀ head, ¬ Label line head

/-- **A plain line**: it does not ask for a password, and the word does not stand before its first
colon. -/
def Plain (line : List Char) : Prop :=
  ¬ Asks line ∧ (':' ∈ trimmed line → ∃ head, Label line head ∧ ¬ word <:+: head)

/-- What is searched is cut at the byte of the first colon. -/
theorem label_iff (hsplit : trimmed line = before ++ ':' :: after) (hbefore : ':' ∉ before) :
    Label line head ↔ cutAt (width before) (lowered (trimmed line)) = some head := by
  rw [cutAt_eq_some_iff]
  constructor
  · rintro ⟨before', after', hsplit', hbefore', hlabel⟩
    have hfirst := splitFirst?_eq_some_iff.mpr ⟨hsplit, hbefore⟩
    have hfirst' := splitFirst?_eq_some_iff.mpr ⟨hsplit', hbefore'⟩
    obtain ⟨rfl, -⟩ := Prod.mk.inj (Option.some.inj (hfirst.symm.trans hfirst'))
    exact hlabel
  · exact fun hlabel => ⟨before, after, hsplit, hbefore, hlabel⟩

theorem Label.unique {head' : List Char} (h : Label line head) (h' : Label line head') :
    head = head' := by
  have ⟨_, _, hsplit, hbefore, _⟩ := h
  have hcut := (label_iff hsplit hbefore).mp h
  exact Option.some.inj (hcut.symm.trans ((label_iff hsplit hbefore).mp h'))

/-- Where the word is found, what stands behind the colon is shorter than the line, by the colon and
at least one character before it. -/
theorem length_rest_le (hsplit : trimmed line = before ++ ':' :: after)
    (hwidth : width head = width before) (hword : word <:+: head) :
    (trimFront after).length + 2 ≤ line.length := by
  have hne : before ≠ [] := by
    rintro rfl
    rw [eq_nil_of_width hwidth] at hword
    exact absurd (List.infix_nil.mp hword) (by decide)
  have hpos : 0 < before.length := List.length_pos_iff.mpr hne
  have hrest := length_trimFront_le after
  have hline := (trimmed_sublist line).length_le
  rw [hsplit, List.length_append, List.length_cons] at hline
  omega

theorem asks_iff : (occurs word (lowered (trimmed line)) &&
    (trimmed line).getLast? == some ':') = true ↔ Asks line := by
  rw [Bool.and_eq_true, occurs_iff_infix, beq_iff_eq, Asks]

/-- A line that asks for a password is dropped. -/
theorem Asks.cleanLine_eq (h : Asks line) : cleanLine line = .dropped := by
  rw [cleanLine]
  exact if_pos (asks_iff.mpr h)

/-- **What becomes of a line**: it is dropped, cannot be cleaned, stays as it is, or loses the colon
and what stands before it. -/
theorem cleanLine_cases (line : List Char) :
    (Asks line ∧ cleanLine line = .dropped) ∨ (Skewed line ∧ cleanLine line = .stuck) ∨
      (Plain line ∧ cleanLine line = .kept line) ∨
      (¬ Plain line ∧ ¬ Skewed line ∧
        ∃ rest, cleanLine line = .kept rest ∧ rest.length + 2 ≤ line.length) := by
  by_cases ha : Asks line
  · exact .inl ⟨ha, ha.cleanLine_eq⟩
  rw [cleanLine, if_neg (mt asks_iff.mp ha)]
  cases hsplit : splitFirst? ':' (trimmed line) with
  | none =>
    have hcolon : ':' ∉ trimmed line := splitFirst?_eq_none_iff.mp hsplit
    exact .inr (.inr (.inl ⟨⟨ha, fun h => absurd h hcolon⟩, rfl⟩))
  | some parts =>
    obtain ⟨before, after⟩ := parts
    obtain ⟨hbody, hbefore⟩ := splitFirst?_eq_some_iff.mp hsplit
    have hcolon : ':' ∈ trimmed line := by simp [hbody]
    dsimp only
    cases hcut : cutAt (width before) (lowered (trimmed line)) with
    | none =>
      refine .inr (.inl ⟨⟨ha, hcolon, fun head hlabel => ?_⟩, rfl⟩)
      rw [(label_iff hbody hbefore).mp hlabel] at hcut
      cases hcut
    | some head =>
      have hlabel : Label line head := (label_iff hbody hbefore).mpr hcut
      dsimp only
      by_cases hword : word <:+: head
      · have hoccurs : occurs word head = true := occurs_iff_infix.mpr hword
        have hlength := length_rest_le hbody (cutAt_eq_some_iff.mp hcut).2 hword
        rw [if_pos hoccurs]
        refine .inr (.inr (.inr ⟨?_, fun h => h.2.2 head hlabel, trimFront after, rfl, hlength⟩))
        rintro ⟨-, hplain⟩
        obtain ⟨head', hlabel', hword'⟩ := hplain hcolon
        exact hword' (hlabel.unique hlabel' ▸ hword)
      · have hoccurs : ¬ occurs word head = true := mt occurs_iff_infix.mp hword
        rw [if_neg hoccurs]
        exact .inr (.inr (.inl ⟨⟨ha, fun _ => ⟨head, hlabel, hword⟩⟩, rfl⟩))

theorem Plain.not_skewed (h : Plain line) : ¬ Skewed line := by
  rintro ⟨-, hcolon, hskewed⟩
  obtain ⟨head, hlabel, -⟩ := h.2 hcolon
  exact hskewed head hlabel

theorem Asks.not_plain (h : Asks line) : ¬ Plain line := fun hplain => hplain.1 h

/-- The lower case of a text in two parts begins with that of the first part, but for the forms of
sigmas; without uneven capitals it takes as many bytes. -/
theorem exists_loweredAfter_append (front s t : List Char) :
    ∃ head rest, loweredAfter front (s ++ t) = head ++ rest ∧
      List.Forall₂ Alike head (loweredAlone s) ∧
      ((∀ c ∈ s, c.toNat ∉ uneven) → width head = width s) := by
  induction s generalizing front with
  | nil => exact ⟨[], _, rfl, .nil, fun _ => rfl⟩
  | cons c s ih =>
    obtain ⟨head, rest, hlowered, halike, hwidth⟩ := ih (c :: front)
    rw [List.cons_append, loweredAfter, hlowered, ← List.append_assoc]
    refine ⟨_, rest, rfl, List.rel_append ?_ halike, fun heven => ?_⟩
    · split
      · next hsigma => exact alike_sigma hsigma _
      · exact List.forall₂_same.mpr fun d _ => .refl d
    · obtain ⟨hc, hs⟩ := List.forall_mem_cons.mp heven
      rw [width_append, hwidth hs, width]
      refine congrArg (· + width s) ?_
      split
      · next hsigma =>
        -- Both forms of the small sigma take as many bytes as the capital.
        obtain rfl : c = Char.ofNat 0x3A3 := by rw [← hsigma, Char.ofNat_toNat]
        split <;> decide
      · exact (width_lowerChar_iff c).mpr hc

/-- Without uneven capitals before the first colon, what is searched of a line is what stands
before it. -/
theorem exists_label_of_even (hsplit : trimmed line = before ++ ':' :: after)
    (hbefore : ':' ∉ before) (heven : ∀ c ∈ before, c.toNat ∉ uneven) :
    ∃ head, Label line head ∧ (word <:+: head ↔ word <:+: lowered before) := by
  obtain ⟨head, rest, hlowered, halike, hwidth⟩ :=
    exists_loweredAfter_append [] before (':' :: after)
  have hbegins : head <+: lowered (trimmed line) := by
    rw [hsplit, lowered, hlowered]
    exact List.prefix_append head rest
  have hascii : ∀ c ∈ word, c.toNat < 128 := fun c hc => (visible_word c hc).1
  refine ⟨head, ⟨before, after, hsplit, hbefore, hbegins, hwidth heven⟩, ?_⟩
  rw [infix_lowered_iff hascii]
  exact ⟨infix_of_alike hascii halike,
    infix_of_alike hascii (halike.flip.imp fun _ _ h => Alike.symm h)⟩

/-- **Without uneven capitals before the first colon**, a line stays as it is unless it asks for a
password or has the word before the colon. -/
theorem plain_iff_of_even (hsplit : trimmed line = before ++ ':' :: after)
    (hbefore : ':' ∉ before) (heven : ∀ c ∈ before, c.toNat ∉ uneven) :
    Plain line ↔ ¬ Asks line ∧ ¬ word <:+: lowered before := by
  obtain ⟨head, hlabel, hword⟩ := exists_label_of_even hsplit hbefore heven
  have hcolon : ':' ∈ trimmed line := by simp [hsplit]
  rw [Plain, ← hword]
  refine and_congr_right fun _ => ⟨fun h => ?_, fun h _ => ⟨head, hlabel, h⟩⟩
  obtain ⟨head', hlabel', hword'⟩ := h hcolon
  exact hlabel'.unique hlabel ▸ hword'

/-- A skewed line has an uneven capital before its first colon. -/
theorem Skewed.exists_uneven (h : Skewed line) :
    ∃ before after, trimmed line = before ++ ':' :: after ∧ ':' ∉ before ∧
      ∃ c ∈ before, c.toNat ∈ uneven := by
  cases hfirst : splitFirst? ':' (trimmed line) with
  | none => exact absurd h.2.1 (splitFirst?_eq_none_iff.mp hfirst)
  | some parts =>
    obtain ⟨hsplit, hbefore⟩ := splitFirst?_eq_some_iff.mp hfirst
    refine ⟨parts.1, parts.2, hsplit, hbefore, ?_⟩
    by_contra heven
    obtain ⟨head, hlabel, -⟩ := exists_label_of_even hsplit hbefore (by simpa using heven)
    exact h.2.2 head hlabel

/-! ## Outputs -/

/-- An output cannot be cleaned if one of its lines cannot. -/
theorem cleanLines_eq_none_iff : cleanLines ls = none ↔ ∃ line ∈ ls, Skewed line := by
  induction ls with
  | nil => simp [cleanLines]
  | cons line ls ih =>
    rw [List.exists_mem_cons_iff, cleanLines]
    rcases cleanLine_cases line with ⟨ha, hline⟩ | ⟨hskewed, hline⟩ | ⟨hplain, hline⟩ |
      ⟨-, hskewed, rest, hline, -⟩
    · rw [hline, or_iff_right fun h : Skewed line => h.1 ha]
      exact ih
    · rw [hline]
      exact iff_of_true rfl (.inl hskewed)
    · rw [hline, or_iff_right hplain.not_skewed, ← ih]
      exact Option.map_eq_none_iff
    · rw [hline, or_iff_right hskewed, ← ih]
      exact Option.map_eq_none_iff

/-- Lines that are cleaned stay as they are if all of them are plain; else there is less of them. -/
theorem cleanLines_cases (h : cleanLines ls = some ks) :
    ((∀ line ∈ ls, Plain line) ∧ ks = ls) ∨
      ((∃ line ∈ ls, ¬ Plain line) ∧ extent ks + 2 ≤ extent ls) := by
  induction ls generalizing ks with
  | nil =>
    obtain rfl := Option.some.inj h
    exact .inl ⟨List.forall_mem_nil _, rfl⟩
  | cons line ls ih =>
    have hless {ks : List (List Char)} (hks : cleanLines ls = some ks) : extent ks ≤ extent ls := by
      rcases ih hks with ⟨-, rfl⟩ | ⟨-, hless⟩
      · exact Nat.le_refl _
      · omega
    rw [cleanLines] at h
    rcases cleanLine_cases line with ⟨ha, hline⟩ | ⟨-, hline⟩ | ⟨hplain, hline⟩ |
      ⟨hnot, -, rest, hline, hrest⟩
    · rw [hline] at h
      have hlast : (trimmed line).getLast? = some ':' := ha.2
      have hpos : 0 < (trimmed line).length := List.length_pos_of_mem (List.mem_of_getLast? hlast)
      refine .inr ⟨⟨line, List.mem_cons_self, ha.not_plain⟩, ?_⟩
      have := hless h
      have := (trimmed_sublist line).length_le
      simp only [extent]
      omega
    · rw [hline] at h
      cases h
    · rw [hline] at h
      obtain ⟨ks, hks, rfl⟩ := Option.map_eq_some_iff.mp h
      rcases ih hks with ⟨hall, rfl⟩ | ⟨⟨l, hl, hnot⟩, hless⟩
      · exact .inl ⟨List.forall_mem_cons.mpr ⟨hplain, hall⟩, rfl⟩
      · refine .inr ⟨⟨l, List.mem_cons_of_mem _ hl, hnot⟩, ?_⟩
        simp only [extent]
        omega
    · rw [hline] at h
      obtain ⟨ks, hks, rfl⟩ := Option.map_eq_some_iff.mp h
      refine .inr ⟨⟨line, List.mem_cons_self, hnot⟩, ?_⟩
      have := hless hks
      simp only [extent]
      omega

/-- **Cleaning changes nothing** if and only if every line is plain. -/
theorem joined_cleanLines_iff :
    (cleanLines ls).map (joined ['\n']) = some (joined ['\n'] ls) ↔ ∀ line ∈ ls, Plain line := by
  constructor
  · intro h
    obtain ⟨ks, hks, hjoined⟩ := Option.map_eq_some_iff.mp h
    rcases cleanLines_cases hks with ⟨hall, -⟩ | ⟨-, hless⟩
    · exact hall
    · have hlength := congrArg List.length hjoined
      rw [length_joined, length_joined] at hlength
      omega
  · intro hall
    cases hclean : cleanLines ls with
    | none =>
      obtain ⟨line, hline, hskewed⟩ := cleanLines_eq_none_iff.mp hclean
      exact absurd hskewed (hall line hline).not_skewed
    | some ks =>
      rcases cleanLines_cases hclean with ⟨-, rfl⟩ | ⟨⟨line, hline, hnot⟩, -⟩
      · rfl
      · exact absurd (hall line hline) hnot

/-- **A garbled output**: one of its lines is skewed. -/
def Garbled (s : String) : Prop := ∃ line ∈ lines (s.toList.filter (· != '\r')), Skewed line

/-- **Garbled outputs cannot be cleaned**, and all others can. -/
theorem cleaned?_eq_none_iff {s : String} : cleaned? s = none ↔ Garbled s := by
  rw [cleaned?, cleanedChars?, Option.map_eq_none_iff, Option.map_eq_none_iff,
    cleanLines_eq_none_iff, Garbled]

/-- Only uneven capitals garble an output. -/
theorem Garbled.exists_uneven {s : String} (h : Garbled s) :
    ∃ c ∈ s.toList, c.toNat ∈ uneven := by
  obtain ⟨line, hline, hskewed⟩ := h
  obtain ⟨before, after, hsplit, -, c, hc, huneven⟩ := hskewed.exists_uneven
  have htrimmed : c ∈ trimmed line := hsplit ▸ List.mem_append_left _ hc
  have hmem := mem_of_mem_lines hline ((trimmed_sublist line).subset htrimmed)
  exact ⟨c, (List.mem_filter.mp hmem).1, huneven⟩

/-! ## Transcripts -/

/-- What a terminal makes of what a command prints: every line feed gets a carriage return. -/
def sent (output : List Char) : List Char :=
  output.flatMap fun c => if c = '\n' then ['\r', '\n'] else [c]

/-- **A transcript**: the line with the prompt, and what the command printed. -/
def transcript (prompt output : String) : String :=
  String.ofList (prompt.toList ++ ['\r', '\n'] ++ sent output.toList)

theorem filter_sent (h : '\r' ∉ s) : (sent s).filter (· != '\r') = s := by
  induction s with
  | nil => rfl
  | cons c s ih =>
    have hc : c ≠ '\r' := fun e => h (e ▸ List.mem_cons_self)
    have hs : '\r' ∉ s := fun e => h (List.mem_cons_of_mem c e)
    rw [sent, List.flatMap_cons, List.filter_append, ← sent, ih hs]
    split
    · next hfeed => simp [hfeed]
    · simp [hc]

/-- **A prompt for a password**: a line with the word, in letters of either case, that ends with a
colon but for blanks. -/
structure Prompt (prompt : String) : Prop where
  oneLine : '\n' ∉ prompt.toList
  named : contains (lowercase prompt) "password" = true
  ended : ∃ front blanks, prompt.toList = front ++ ':' :: blanks ∧ ∀ c ∈ blanks, isBlank c = true

/-- Without carriage returns a prompt asks for a password. -/
theorem Prompt.asks {prompt : String} (h : Prompt prompt) :
    Asks (prompt.toList.filter (· != '\r')) := by
  constructor
  · have hword : word <:+: lowered prompt.toList := by
      have hcontains : word <:+: (lowercase prompt).toList := occurs_iff_infix.mp h.named
      rwa [lowercase, String.toList_ofList] at hcontains
    exact (infix_lowered_trimmed_iff visible_word).mpr
      (infix_lowered_filter visible_word (by decide) (by decide) hword)
  · obtain ⟨front, blanks, hsplit, hblanks⟩ := h.ended
    rw [hsplit, List.filter_append, List.filter_cons_of_pos (by decide)]
    exact getLast?_trimmed (by decide) fun c hc => hblanks c (List.mem_filter.mp hc).1

/-- The lines of a transcript are the prompt and the lines of the output. -/
theorem lines_transcript {prompt output : String} (hprompt : '\n' ∉ prompt.toList)
    (houtput : '\r' ∉ output.toList) :
    lines ((transcript prompt output).toList.filter (· != '\r')) =
      prompt.toList.filter (· != '\r') :: lines output.toList := by
  have hfilter : (transcript prompt output).toList.filter (· != '\r') =
      prompt.toList.filter (· != '\r') ++ '\n' :: output.toList := by
    rw [transcript, String.toList_ofList, List.append_assoc, List.filter_append, List.cons_append,
      List.filter_cons_of_neg (by decide), List.cons_append, List.filter_cons_of_pos (by decide),
      List.nil_append, filter_sent houtput]
  rw [hfilter]
  refine lines_append_cons (fun h => hprompt (List.mem_filter.mp h).1) fun h => ?_
  exact absurd (List.mem_filter.mp h).2 (by decide)

/-- **When cleaning comes to the output of the command**: if and only if no line of the output asks
for a password or has the word before its first colon. -/
theorem cleaned_transcript_iff {prompt output : String} (hprompt : Prompt prompt)
    (houtput : '\r' ∉ output.toList) :
    cleaned? (transcript prompt output) =
        some (String.ofList (joined ['\n'] (lines output.toList))) ↔
      ∀ line ∈ lines output.toList, Plain line := by
  rw [cleaned?, cleanedChars?, lines_transcript hprompt.oneLine houtput, cleanLines,
    hprompt.asks.cleanLine_eq, ← joined_cleanLines_iff, Option.map_eq_some_iff]
  constructor
  · rintro ⟨s, hs, heq⟩
    rw [hs, String.ofList_injective heq]
  · intro h
    exact ⟨_, h, rfl⟩

theorem prompt_password : Prompt "Password: " where
  oneLine := by decide
  named := by decide +kernel
  ended := ⟨"Password".toList, [' '], by decide, List.forall_mem_singleton.mpr (by decide)⟩

/-- Colons do no harm behind other words. -/
theorem cleaned_transcript_listing :
    Prompt "Password: " ∧ '\r' ∉ "uid: 0\nhome: /root\n".toList ∧
      cleaned? (transcript "Password: " "uid: 0\nhome: /root\n") = some "uid: 0\nhome: /root" ∧
      ∀ line ∈ lines "uid: 0\nhome: /root\n".toList, Plain line := by
  have hreturn : '\r' ∉ "uid: 0\nhome: /root\n".toList := by decide
  have hcleaned : cleaned? (transcript "Password: " "uid: 0\nhome: /root\n") =
      some (String.ofList (joined ['\n'] (lines "uid: 0\nhome: /root\n".toList))) := by
    decide +kernel
  refine ⟨prompt_password, hreturn, by decide +kernel, ?_⟩
  exact (cleaned_transcript_iff prompt_password hreturn).mp hcleaned

/-- A setting whose name ends with the word loses its name. -/
theorem cleaned_transcript_setting :
    Prompt "Password: " ∧ '\r' ∉ "db_password: hunter2\n".toList ∧
      joined ['\n'] (lines "db_password: hunter2\n".toList) = "db_password: hunter2".toList ∧
      cleaned? (transcript "Password: " "db_password: hunter2\n") = some "hunter2" :=
  ⟨prompt_password, by decide, by decide +kernel, by decide +kernel⟩

end RemoteShell.Terminal
