import RemoteShell.Proofs.Counts.Entries
import RemoteShell.Proofs.Json.Shapes

/-!
# Lawful codecs

A codec is lawful for a shape if it reads back what it writes, and writes again, for whatever it
reads, the tidy form that the shape gives to the document.  The second law also says which documents
are read at all.

Codecs of texts, truth values and numbers are lawful, and so are those of names, lists and counts.
A codec of a record is lawful if the reader asks for the fields in the table of its shape.

## Main definitions

* `Shaped`: the shape of the documents of a type
* `Lawful`: the two laws of a codec

## Main results

* `Lawful.of_whole`, `Lawful.of_names`, `Lawful.of_record`: numbers, names and records
* `Lawful.read_repeated`: an object that has a field twice is not read as a record
-/

namespace RemoteShell

/-- The shape of the documents of a type. -/
class Shaped (α : Type) where
  shape : Shape
  proper : shape.Proper

export Shaped (shape)

/-- **The laws of a codec**: what is written is read back, and what is written for the value of a
document is the tidy form of the document. -/
class Lawful (α : Type) [Codec α] [Shaped α] : Prop where
  read_write (v : α) : Codec.read (write v) = some v
  rewritten (d : Json) : (Codec.read d : Option α).map write = (shape α).tidy d

export Lawful (rewritten)

attribute [simp] Shaped.proper Lawful.read_write

namespace Lawful

section

variable {α : Type} [Codec α] [Shaped α] [Lawful α]

variable (α) in
theorem read_null : (Codec.read .null : Option α) = none :=
  Option.map_eq_none_iff.mp ((rewritten .null).trans (shape α).tidy_null)

theorem write_ne_null (v : α) : write v ≠ .null := by
  intro h
  have hread := read_write v
  rw [h, read_null] at hread
  exact nomatch hread

theorem tidy_write (v : α) : (shape α).tidy (write v) = some (write v) := by
  rw [← rewritten, read_write, Option.map_some]

end

/-! ## Texts, truth values and numbers -/

instance : Shaped String := ⟨.text, .text⟩

instance : Lawful String := ⟨fun _ => rfl, fun _ => rfl⟩

instance : Shaped Bool := ⟨.truth, .truth⟩

instance : Lawful Bool := ⟨fun _ => rfl, fun _ => rfl⟩

/-- Whole numbers between two bounds are read as a type with as many values. -/
theorem of_whole {α : Type} [Codec α] [Shaped α] {least greatest : Int} (toInt : α → Int)
    (ofInt : Int → α) (hshape : shape α = .whole least greatest)
    (hwrite : ∀ v : α, write v = .int (toInt v))
    (hread : ∀ d, (Codec.read d : Option α) =
      d.asInt.bind fun n => if least ≤ n ∧ n ≤ greatest then some (ofInt n) else none)
    (hbounds : ∀ v, least ≤ toInt v ∧ toInt v ≤ greatest) (hleft : ∀ v, ofInt (toInt v) = v)
    (hright : ∀ n, least ≤ n ∧ n ≤ greatest → toInt (ofInt n) = n) : Lawful α where
  read_write v := by
    rw [hwrite, hread, Json.int, Json.asInt, Option.bind_some, if_pos (hbounds v), hleft]
  rewritten d := by
    rw [hread, hshape, Shape.tidy, Option.map_bind]
    apply Option.bind_congr
    intro n _
    rw [Function.comp_apply]
    split
    · next hn => rw [Option.map_some, hwrite, hright n hn]
    · rfl

/-- Numbers from zero on are read as whole numbers are. -/
theorem map_asNat {α : Type} (f : Nat → α) (bound : Nat) (d : Json) :
    (d.asNat bound).map f =
      d.asInt.bind fun n => if 0 ≤ n ∧ n ≤ bound then some (f n.toNat) else none := by
  rw [Json.asNat, Option.map_bind]
  apply Option.bind_congr
  intro n _
  rw [Function.comp_apply]
  split <;> rfl

/-- Whole numbers from zero to a bound are read as a type with as many values. -/
theorem of_word {α : Type} [Codec α] [Shaped α] {bound : Nat} (toNat : α → Nat) (ofNat : Nat → α)
    (hshape : shape α = .whole 0 bound) (hwrite : ∀ v : α, write v = .nat (toNat v))
    (hread : ∀ d, (Codec.read d : Option α) = (d.asNat bound).map ofNat)
    (hbound : ∀ v, toNat v ≤ bound) (hleft : ∀ v, ofNat (toNat v) = v)
    (hright : ∀ n ≤ bound, toNat (ofNat n) = n) : Lawful α := by
  refine of_whole (fun v => toNat v) (fun n => ofNat n.toNat) hshape hwrite
    (fun d => (hread d).trans (map_asNat ofNat bound d)) (fun v => ?_) hleft fun n hn => ?_
  · exact ⟨Int.natCast_nonneg _, Int.ofNat_le.mpr (hbound v)⟩
  · have hle : n.toNat ≤ bound := by omega
    rw [hright _ hle, Int.toNat_of_nonneg hn.1]

instance : Shaped UInt16 := ⟨.whole 0 65535, .whole _ _⟩

instance : Lawful UInt16 :=
  of_word UInt16.toNat UInt16.ofNat rfl (fun _ => rfl) (fun _ => rfl)
    (fun v => Nat.le_of_lt_succ v.toNat_lt_size) (fun _ => UInt16.ofNat_toNat)
    fun _ hn => UInt16.toNat_ofNat_of_lt' (Nat.lt_succ_of_le hn)

instance : Shaped UInt32 := ⟨.whole 0 4294967295, .whole _ _⟩

instance : Lawful UInt32 :=
  of_word UInt32.toNat UInt32.ofNat rfl (fun _ => rfl) (fun _ => rfl)
    (fun v => Nat.le_of_lt_succ v.toNat_lt_size) (fun _ => UInt32.ofNat_toNat)
    fun _ hn => UInt32.toNat_ofNat_of_lt' (Nat.lt_succ_of_le hn)

instance : Shaped UInt64 := ⟨.whole 0 18446744073709551615, .whole _ _⟩

instance : Lawful UInt64 :=
  of_word UInt64.toNat UInt64.ofNat rfl (fun _ => rfl) (fun _ => rfl)
    (fun v => Nat.le_of_lt_succ v.toNat_lt_size) (fun _ => UInt64.ofNat_toNat)
    fun _ hn => UInt64.toNat_ofNat_of_lt' (Nat.lt_succ_of_le hn)

instance : Shaped Int32 := ⟨.whole (-2147483648) 2147483647, .whole _ _⟩

instance : Lawful Int32 :=
  of_whole Int32.toInt Int32.ofInt rfl (fun _ => rfl) (fun _ => rfl)
    (fun v => ⟨v.le_toInt, Int.le_of_lt_add_one v.toInt_lt⟩) (fun v => v.ofInt_toInt)
    fun _ hn => Int32.toInt_ofInt_of_le hn.1 (Int.lt_add_one_of_le hn.2)

/-! ## Names -/

/-- What is found under a name has the name. -/
theorem map_find?_name {α β : Type} (name : α → String) (f : String → β) (l : List α)
    (s : String) :
    (l.find? (name · == s)).map (fun a => f (name a)) =
      if s ∈ l.map name then some (f s) else none := by
  induction l with
  | nil => rfl
  | cons a l ih =>
    by_cases h : name a = s
    · simp [h]
    · rw [List.find?_cons_of_neg (by simpa using h), ih]
      simp [Ne.symm h]

/-- What a name was read as is written, or the name is. -/
theorem map_readName {α β : Type} (ofName? : String → Option α) (f : α → β) (d : Json) :
    (readName ofName? d).map f = readName (fun s => (ofName? s).map f) d := by
  unfold readName
  split <;> rfl

/-- Names are looked up in a list of all values. -/
theorem of_names {α : Type} [Codec α] [Shaped α] (name : α → String) {all : List α}
    (hshape : shape α = .names (all.map name)) (hwrite : ∀ v : α, write v = .str (name v))
    (hread : ∀ d, (Codec.read d : Option α) = readName (fun s => all.find? (name · == s)) d)
    (hall : ∀ v, all.find? (name · == name v) = some v) : Lawful α where
  read_write v := by rw [hwrite, hread, readName, hall]
  rewritten d := by
    rw [hread, hshape, Shape.tidy, map_readName]
    congr 1
    funext s
    rw [funext hwrite]
    exact map_find?_name name Json.str all s

/-! ## Lists and counts -/

instance {α : Type} [Shaped α] : Shaped (List α) := ⟨.list (shape α), .list Shaped.proper⟩

section

variable {α : Type} [Codec α] [Shaped α] [Lawful α]

theorem readItems_map_write (l : List α) : readItems Codec.read (l.map write) = some l := by
  induction l with
  | nil => rfl
  | cons v l ih => rw [List.map_cons, readItems, read_write, Option.bind_some, ih, Option.map_some]

theorem map_readItems (items : List Json) :
    (readItems Codec.read items : Option (List α)).map (List.map write) =
      readItems (shape α).tidy items := by
  induction items with
  | nil => rfl
  | cons j items ih =>
    rw [readItems, readItems, ← rewritten, ← ih]
    cases (Codec.read j : Option α) with
    | none => rfl
    | some v => cases (readItems Codec.read items : Option (List α)) <;> rfl

instance : Lawful (List α) where
  read_write l := readItems_map_write l
  rewritten d := by
    cases d with
    | arr items =>
      show (readItems Codec.read items : Option (List α)).map _ = (readItems _ items).map _
      rw [← map_readItems, Option.map_map]
      rfl
    | _ => rfl

end

instance : Shaped Counts := ⟨.counts, .counts⟩

theorem readCounts_write (es : List (String × UInt64)) :
    readCounts (es.map fun e => (e.1, write e.2)) = some es := by
  induction es with
  | nil => rfl
  | cons e es ih =>
    rw [List.map_cons, readCounts, read_write, Option.bind_some, ih, Option.map_some]

instance : Lawful Counts where
  read_write c := by
    show (readCounts _).map Counts.ofList = some c
    rw [readCounts_write, Option.map_some, c.ofList_entries]
  rewritten _ := rfl

/-! ## Records -/

section

variable {α : Type} [Codec α] [Shaped α] [Lawful α]

@[simp] theorem required_write (v : α) : (Slot.of .absent (some (write v))).required = some v :=
  read_write v

@[simp] theorem orElse_write (standard v : α) :
    (Slot.of .absent (some (write v))).orElse standard = some v := read_write v

omit [Shaped α] [Lawful α] in
theorem readOptional_of_ne_null {j : Json} (h : j ≠ .null) :
    (Slot.readOptional j : Option (Option α)) = (Codec.read j).map some := by
  cases j <;> first | rfl | exact absurd rfl h

@[simp] theorem skippable_write (v : Option α) :
    (Slot.of .absent (v.map write)).skippable = some v := by
  cases v with
  | none => rfl
  | some v =>
    show Slot.readOptional (write v) = some (some v)
    rw [readOptional_of_ne_null (write_ne_null v), read_write, Option.map_some]

variable {fields : List (String × Presence × Shape)} {name : String} {place : Nat} {slots : Slots}

omit [Codec α] [Shaped α] [Lawful α] in
@[simp] theorem tidyFields_nil : Shape.tidyFields [] place slots = some [] := rfl

/-- A document is tidied as what is written for its value. -/
theorem map_some_tidy (j : Json) :
    ((shape α).tidy j).map some = (Codec.read j : Option α).map fun v => some (write v) := by
  rw [← rewritten, Option.map_map]
  rfl

theorem tidy_required (slot : Slot) :
    Presence.required.tidy (shape α).tidy slot =
      (slot.required : Option α).map fun v => some (write v) := by
  cases slot with
  | given j => exact map_some_tidy j
  | _ => rfl

theorem tidy_optional (slot : Slot) :
    Presence.optional.tidy (shape α).tidy slot =
      (slot.skippable : Option (Option α)).map fun v => v.map write := by
  cases slot with
  | given j =>
    show Presence.optional.tidyGiven (shape α).tidy j =
      (Slot.readOptional j : Option (Option α)).map fun v => v.map write
    by_cases hj : j = .null
    · subst hj
      rfl
    · rw [Presence.tidyGiven_of_ne_null hj, readOptional_of_ne_null hj, map_some_tidy,
        Option.map_map]
      rfl
  | _ => rfl

theorem tidy_standard {standard : α} {j : Json} (hj : write standard = j) (slot : Slot) :
    (Presence.standard j).tidy (shape α).tidy slot =
      (slot.orElse standard : Option α).map fun v => some (write v) := by
  have habsent : ((shape α).tidy j).map some = some (some (write standard)) := by
    rw [← hj, tidy_write, Option.map_some]
  cases slot with
  | given j => exact map_some_tidy j
  | repeated => rfl
  | absent => exact habsent
  | beyond => exact habsent

/-- A required field is tidied as what is written for the value that the reader takes from it. -/
@[simp] theorem tidyFields_required :
    Shape.tidyFields ((name, .required, shape α) :: fields) place slots =
      (slots place name).required.bind fun v : α =>
        (Shape.tidyFields fields (place + 1) slots).map ((name, write v) :: ·) := by
  rw [Shape.tidyFields, tidy_required, Option.bind_map]
  rfl

@[simp] theorem tidyFields_optional :
    Shape.tidyFields ((name, .optional, shape α) :: fields) place slots =
      (slots place name).skippable.bind fun v : Option α =>
        (Shape.tidyFields fields (place + 1) slots).map
          (Json.member? name (v.map write) ++ ·) := by
  rw [Shape.tidyFields, tidy_optional, Option.bind_map]
  rfl

theorem tidyFields_standard {standard : α} {j : Json} (hj : write standard = j) :
    Shape.tidyFields ((name, .standard j, shape α) :: fields) place slots =
      ((slots place name).orElse standard).bind fun v : α =>
        (Shape.tidyFields fields (place + 1) slots).map ((name, write v) :: ·) := by
  rw [Shape.tidyFields, tidy_standard hj, Option.bind_map]
  rfl

end

/-- **Records**: it is enough that the reader takes from the slots what the table of fields says,
and that it finds the fields among the members that are written. -/
theorem of_record {α : Type} [Codec α] [Shaped α] {fields : List (String × Presence × Shape)}
    {k : Slots → Option α} {members : α → List (String × Json)} (hshape : shape α = .record fields)
    (hread : (Codec.read : Json → Option α) = Record.read fields.length k)
    (hwrite : ∀ v : α, write v = .obj (members v))
    (hfound : ∀ v, k (fun _ name => .of .absent (Assoc.get? (members v) name)) = some v)
    (htidy : ∀ slots, (k slots).map members = Shape.tidyFields fields 0 slots) : Lawful α where
  read_write v := by
    -- What is written has no name twice, because it is a tidy record.
    have hproper : (Shape.record fields).Proper := hshape ▸ Shaped.proper
    have htable := htidy fun _ name => .of .absent (Assoc.get? (members v) name)
    rw [hfound, Option.map_some] at htable
    have hkeyed : Assoc.Keyed (members v) :=
      (Shape.sublist_of_tidyFields htable.symm).nodup hproper.keyed
    rw [hwrite, hread, Record.read_obj]
    simp only [Slot.among_of_keyed hkeyed]
    exact hfound v
  rewritten d := by
    have hmembers : (write : α → Json) = .obj ∘ members := funext hwrite
    have hslots : (fun slots => (k slots).map (write : α → Json)) =
        fun slots => (Shape.tidyFields fields 0 slots).map .obj := by
      funext slots
      rw [hmembers, ← Option.map_map, htidy]
    rw [hshape, Shape.tidy, hread, Record.map_read, hslots]

/-- **No record is read from an object that has a field twice**, whatever the two members hold. -/
theorem read_repeated {α : Type} [Codec α] [Shaped α] [Lawful α]
    {fields : List (String × Presence × Shape)} {name : String} {p : Presence} {s : Shape}
    {j : Json} (hshape : shape α = .record fields) (hfield : (name, p, s) ∈ fields)
    (before after : List (String × Json)) (htwice : Assoc.get? (before ++ after) name ≠ none) :
    (Codec.read (.obj (before ++ (name, j) :: after)) : Option α) = none := by
  apply Option.map_eq_none_iff.mp
  rw [rewritten, hshape]
  exact Shape.tidy_repeated hfield before after htwice

end Lawful

end RemoteShell
