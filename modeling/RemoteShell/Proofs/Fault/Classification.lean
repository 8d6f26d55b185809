import RemoteShell.Fault
import RemoteShell.Proofs.Text.Lowering

/-!
# Which fault a message speaks of

The messages of the transport are told apart by words in their lower case.  The words stand in
tables, each with its fault, and the first table that has a word of the message decides.

All words are ASCII.  So neither the letters around a word nor their case have a part in finding it,
although the lower case of a letter may depend on the letters around it: a message has all the words
of its parts, and whatever is written around the message of a refused authentication, in words of a
lost connection or any others, it is that of a refused authentication and is not tried again.

## Main definitions

* `Table`, `tables`: the words of a fault, and all tables in the order in which they are searched
* `Table.Covers`: a message has a word of a table

## Main results

* `Table.covers_iff_alone`: words are found in the letters lowered one by one
* `Table.Covers.surround`: what is around a message takes no word from it
* `Table.covers_congr`: the case of letters does not matter
* `classify_decided`: the fault behind a message
-/

namespace RemoteShell.Fault

open Text (loweredAlone lowered)

/-- **A table of words** with the fault that they speak of. -/
structure Table where
  words : List String
  fault (host user message : String) (limit : Duration) : Fault

/-- The words of a refused authentication. -/
def refusals : Table :=
  ⟨authenticationWords, fun host user message _ => .authenticationFailed user host message false⟩

/-- The tables in the order in which they are searched. -/
def tables : List Table := [
  refusals,
  ⟨timeoutWords, fun host _ _ limit => .connectionTimeout host limit⟩,
  ⟨unreachableWords, fun host _ message _ => .unreachable host message⟩,
  ⟨lostWords, fun host _ message _ => .connectionLost host message⟩]

/-- **A message has a word of a table**: its lower case has the characters of the word, one behind
the other. -/
def Table.Covers (t : Table) (message : String) : Prop :=
  ∃ word ∈ t.words, word.toList <:+: lowered message.toList

instance (t : Table) (message : String) : Decidable (t.Covers message) :=
  inferInstanceAs (Decidable (∃ word ∈ t.words, _))

/-- A table of which all words are ASCII. -/
def Table.Ascii (t : Table) : Prop := ∀ word ∈ t.words, ∀ c ∈ word.toList, c.toNat < 128

/-- The words of all tables are ASCII. -/
theorem ascii_of_mem_tables : ∀ t ∈ tables, t.Ascii := by
  have hall : (tables.all fun t => t.words.all fun word =>
      word.toList.all fun c => c.toNat < 128) = true := by decide +kernel
  simpa only [Table.Ascii, List.all_eq_true, decide_eq_true_eq] using hall

namespace Table

variable {t : Table} {message other : String}

theorem covers_iff_containsAny :
    t.Covers message ↔ Text.containsAny (Text.lowercase message) t.words = true := by
  simp only [Covers, Text.containsAny, List.any_eq_true, Text.contains, Text.lowercase,
    String.toList_ofList, Text.occurs_iff_infix]

/-- **Words are found** in the letters lowered one by one. -/
theorem covers_iff_alone (ht : t.Ascii) :
    t.Covers message ↔ ∃ word ∈ t.words, word.toList <:+: loweredAlone message.toList :=
  exists_congr fun word => and_congr_right fun hword => Text.infix_lowered_iff (ht word hword)

/-- **What is around a message** takes no word from it. -/
theorem Covers.surround (h : t.Covers message) (ht : t.Ascii) (before behind : String) :
    t.Covers (before ++ message ++ behind) := by
  rw [covers_iff_alone ht] at h ⊢
  obtain ⟨word, hword, hfound⟩ := h
  refine ⟨word, hword, ?_⟩
  simp only [String.toList_append, Text.loweredAlone_append]
  exact hfound.trans ⟨loweredAlone before.toList, loweredAlone behind.toList, rfl⟩

/-- **The case of the letters of ASCII** does not matter. -/
theorem covers_congr (ht : t.Ascii)
    (h : other.toList.map Char.toLower = message.toList.map Char.toLower) :
    t.Covers other ↔ t.Covers message := by
  have hlowered : loweredAlone other.toList = loweredAlone message.toList := by
    rw [← Text.loweredAlone_map_toLower, h, Text.loweredAlone_map_toLower]
  rw [covers_iff_alone ht, covers_iff_alone ht, hlowered]

end Table

/-! ## The fault behind a message -/

variable {host user message other : String} {limit : Duration}

/-- **The first table decides** that has a word of the message. -/
theorem classify_eq (host user message : String) (limit : Duration) :
    classify host user message limit =
      ((tables.find? (·.Covers message)).map (·.fault host user message limit)).getD
        (.protocol message) := by
  simp only [classify, kindOfWords, tables, refusals, List.find?_cons, List.find?_nil,
    Table.covers_iff_containsAny, Bool.decide_eq_true]
  cases Text.containsAny (Text.lowercase message) authenticationWords
  case true => rfl
  cases Text.containsAny (Text.lowercase message) timeoutWords
  case true => rfl
  cases Text.containsAny (Text.lowercase message) unreachableWords
  case true => rfl
  cases Text.containsAny (Text.lowercase message) lostWords <;> rfl

/-- A table gives all its messages one kind of fault, and only one table that of a refused
authentication. -/
theorem kind_of_mem_tables {t : Table} (ht : t ∈ tables) (message other : String) :
    (t.fault host user message limit).kind = (t.fault host user other limit).kind ∧
      ((t.fault host user message limit).kind = .authenticationFailed → t = refusals) := by
  simp only [tables, List.mem_cons, List.not_mem_nil, or_false] at ht
  rcases ht with rfl | rfl | rfl | rfl <;> simp [kind, refusals]

/-- A message has a word of a refused authentication just if it is taken for that of one: no other
table is searched before. -/
theorem kind_eq_authenticationFailed_iff :
    (classify host user message limit).kind = .authenticationFailed ↔ refusals.Covers message := by
  rw [classify_eq]
  constructor
  · intro hkind
    cases hfound : tables.find? (·.Covers message) with
    | none =>
      rw [hfound] at hkind
      cases hkind
    | some t =>
      rw [hfound] at hkind
      obtain rfl := (kind_of_mem_tables (List.mem_of_find?_eq_some hfound) message message).2 hkind
      simpa using List.find?_some hfound
  · intro hcovers
    rw [tables, List.find?_cons_of_pos (by simpa using hcovers)]
    rfl

/-- **The fault behind a message**: the first table that has a word of its lower case decides, or
the message is one of the protocol; its kind is the same for all messages that differ only in the
case of letters of ASCII; and whatever is written around the message of a refused authentication,
the whole is one, and is never tried again. -/
theorem classify_decided (host user message : String) (limit : Duration) :
    classify host user message limit =
        ((tables.find? (·.Covers message)).map (·.fault host user message limit)).getD
          (.protocol message) ∧
      (∀ other : String, other.toList.map Char.toLower = message.toList.map Char.toLower →
        (classify host user other limit).kind = (classify host user message limit).kind) ∧
      ((classify host user message limit).kind = .authenticationFailed →
        ∀ before behind,
          classify host user (before ++ message ++ behind) limit =
              .authenticationFailed user host (before ++ message ++ behind) false ∧
            (classify host user (before ++ message ++ behind) limit).transient = false) := by
  refine ⟨classify_eq .., fun other hother => ?_, fun hkind before behind => ?_⟩
  · have hsame : tables.find? (·.Covers other) = tables.find? (·.Covers message) := by
      rw [← List.head?_filter, ← List.head?_filter]
      refine congrArg List.head? (List.filter_congr fun t ht => ?_)
      exact decide_eq_decide.mpr (Table.covers_congr (ascii_of_mem_tables t ht) hother)
    rw [classify_eq, classify_eq, hsame]
    cases hfound : tables.find? (·.Covers message) with
    | none => rfl
    | some t => exact (kind_of_mem_tables (List.mem_of_find?_eq_some hfound) _ _).1
  · have hcovers : refusals.Covers (before ++ message ++ behind) :=
      (kind_eq_authenticationFailed_iff.mp hkind).surround
        (ascii_of_mem_tables refusals List.mem_cons_self) before behind
    have hrefused : classify host user (before ++ message ++ behind) limit =
        .authenticationFailed user host (before ++ message ++ behind) false := by
      rw [classify_eq, tables, List.find?_cons_of_pos (by simpa using hcovers)]
      rfl
    exact ⟨hrefused, by rw [hrefused]; rfl⟩

/-- A refused key is a refused authentication, in capitals and in the words of a broken
connection. -/
theorem classify_decided_refused_key :
    (classify "h" "u" "publickey" .zero).kind = .authenticationFailed ∧
      (classify "h" "u" "PublicKey" .zero).kind = .authenticationFailed ∧
      (classify "h" "u" ("Connection reset: " ++ "publickey" ++ " (timed out)") .zero).transient =
        false := by
  obtain ⟨hfirst, hcase, hwhole⟩ := classify_decided "h" "u" "publickey" .zero
  have hrefused : (classify "h" "u" "publickey" .zero).kind = .authenticationFailed := by
    rw [hfirst]
    decide
  refine ⟨hrefused, (hcase "PublicKey" (by decide)).trans hrefused, ?_⟩
  exact (hwhole hrefused "Connection reset: " " (timed out)").2

end RemoteShell.Fault
