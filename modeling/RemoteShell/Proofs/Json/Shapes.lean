import RemoteShell.Assoc
import RemoteShell.Json.Codec

/-!
# The shapes of documents

A shape tells which documents stand for a value, without the type of the value.  Every such document
has a tidy form: its records are objects with their fields in order and no other members, standard
values are written out, and nothing is `null`.

## Main definitions

* `Presence`, `Shape`: the fields of a record, and the shapes of documents
* `Shape.tidy`: the tidy form of a document, if the document has the shape
* `Shape.Proper`: no record has a field twice, and standard values are tidy

## Main results

* `Shape.tidy_obj_congr`: only what an object says of the fields counts
* `Shape.sublist_of_tidyFields`: a tidy record has the names of its fields in their order
* `Shape.tidy_repeated`: an object that has a field twice is no record
-/

namespace RemoteShell

/-- What it means that a field of a record is left out. -/
inductive Presence where
  -- It must not be left out.
  | required
  -- There is no value.
  | optional
  -- There is a standard value.
  | standard (j : Json)

/-- The documents of a type. -/
inductive Shape where
  | text
  | truth
  | whole (least greatest : Int)
  | names (l : List String)
  | list (item : Shape)
  | counts
  | record (fields : List (String × Presence × Shape))

/-! ## Slots -/

@[simp] theorem get?_member? (name other : String) (j : Option Json) :
    Assoc.get? (Json.member? name j) other = if name = other then j else none := by
  cases j with
  | none => exact (ite_self none).symm
  | some j => rw [Json.member?, Assoc.get?_cons, Assoc.get?_nil]

namespace Slot

/-- What stands at the place of a field, for which a document may be given. -/
def of (otherwise : Slot) : Option Json → Slot
  | some j => .given j
  | none => otherwise

variable {ms : List (String × Json)} {name other : String} {j : Json}

theorem filter_eq_nil_iff :
    ms.filter (fun m => decide (m.1 = name)) = [] ↔ Assoc.get? ms name = none := by
  simp [Assoc.get?, List.filter_eq_nil_iff]

theorem among_of_get?_eq_none (h : Assoc.get? ms name = none) : among ms name = .absent := by
  rw [among, filter_eq_nil_iff.mpr h]

section

variable (before after : List (String × Json))

/-- Members with other names do not count. -/
theorem among_insert_of_ne (h : other ≠ name) :
    among (before ++ (name, j) :: after) other = among (before ++ after) other := by
  simp [among, h.symm]

/-- A member counts if there is no other one with its name. -/
theorem among_insert_self (h : Assoc.get? (before ++ after) name = none) :
    among (before ++ (name, j) :: after) name = .given j := by
  rw [← filter_eq_nil_iff, List.filter_append, List.append_eq_nil_iff] at h
  rw [among, List.filter_append, List.filter_cons_of_pos (by simp), h.1, h.2]
  rfl

theorem among_insert_repeated (h : Assoc.get? (before ++ after) name ≠ none) :
    among (before ++ (name, j) :: after) name = .repeated := by
  rw [ne_eq, ← filter_eq_nil_iff, List.filter_append, List.append_eq_nil_iff] at h
  rw [among, List.filter_append, List.filter_cons_of_pos (by simp)]
  -- The other member with the name stands before this one or after it.
  cases hbefore : before.filter fun m => decide (m.1 = name) with
  | cons m l => cases l <;> simp
  | nil =>
    cases hafter : after.filter fun m => decide (m.1 = name) with
    | cons m l => simp
    | nil => exact absurd ⟨hbefore, hafter⟩ h

/-- The order of two members with different names does not matter. -/
theorem among_swap {m n : String × Json} (h : m.1 ≠ n.1) (name : String) :
    among (before ++ m :: n :: after) name = among (before ++ n :: m :: after) name := by
  have hfilter : (m :: n :: after).filter (fun m => decide (m.1 = name)) =
      (n :: m :: after).filter fun m => decide (m.1 = name) := by
    -- The filter keeps one of the two at most.
    by_cases hm : m.1 = name
    · have hn : n.1 ≠ name := fun hn => h (hm.trans hn.symm)
      simp [hm, hn]
    · simp [List.filter_cons, hm]
  rw [among, among, List.filter_append, List.filter_append, hfilter]

end

/-- In an object that has no name twice a field stands where it is looked up. -/
theorem among_of_keyed (h : Assoc.Keyed ms) (name : String) :
    among ms name = .of .absent (Assoc.get? ms name) := by
  induction ms with
  | nil => rfl
  | cons m ms ih =>
    obtain ⟨first, j⟩ := m
    obtain ⟨hothers, hms⟩ := Assoc.Keyed.cons_iff.mp h
    rw [Assoc.get?_cons]
    by_cases hname : first = name
    · subst hname
      have hnone : Assoc.get? ms first = none := by simpa [Assoc.get?] using hothers
      rw [if_pos rfl]
      exact among_insert_self [] ms hnone
    · rw [if_neg hname, ← ih hms]
      exact among_insert_of_ne [] ms (Ne.symm hname)

end Slot

namespace Record

variable {α β : Type} (size : Nat) (k : Slots → Option α)

theorem read_obj (ms : List (String × Json)) :
    Record.read size k (.obj ms) = k fun _ name => .among ms name := rfl

theorem read_arr {items : List Json} (h : items.length ≤ size) :
    Record.read size k (.arr items) = k fun place _ => .of .beyond items[place]? := if_pos h

variable {size k} in
theorem length_le_of_read {items : List Json} {a : α}
    (h : Record.read size k (.arr items) = some a) : items.length ≤ size := by
  by_cases hlength : items.length ≤ size
  · exact hlength
  · have hnone : Record.read size k (.arr items) = none := if_neg hlength
    exact nomatch hnone.symm.trans h

theorem map_read (f : α → β) (d : Json) :
    (Record.read size k d).map f = Record.read size (fun slots => (k slots).map f) d := by
  unfold Record.read
  split
  · rfl
  · split <;> rfl
  · rfl

end Record

namespace Presence

/-- What may be written for a field to say the same as by leaving it out. -/
def standIn : Presence → Option Json
  | .required => none
  | .optional => some .null
  | .standard j => some j

/-- What the tidy form of a record has for a field that is written. -/
def tidyGiven (p : Presence) (tidy : Json → Option Json) (j : Json) : Option (Option Json) :=
  match p, j with
  | .optional, .null => some none
  | _, j => (tidy j).map some

/-- What the tidy form of a record has for a field; nothing where an optional field is left out. -/
def tidy (p : Presence) (tidy : Json → Option Json) : Slot → Option (Option Json)
  | .given j => p.tidyGiven tidy j
  | .repeated => none
  | .absent | .beyond => p.standIn.bind (p.tidyGiven tidy)

variable {p : Presence} {t : Json → Option Json} {j j' : Json}

theorem tidyGiven_of_ne_null (h : j ≠ .null) : p.tidyGiven t j = (t j).map some := by
  cases p <;> cases j <;> first | rfl | exact absurd rfl h

/-- A field that is left out is tidied as what stands in for it. -/
theorem tidy_absent (h : p.standIn = some j) : p.tidy t .absent = p.tidy t (.given j) := by
  show p.standIn.bind (p.tidyGiven t) = p.tidyGiven t j
  rw [h, Option.bind_some]

theorem tidy_given_congr (h : t j = t j') (hnull : j = .null ↔ j' = .null) :
    p.tidy t (.given j) = p.tidy t (.given j') := by
  by_cases hj : j = .null
  · rw [hj, hnull.mp hj]
  · rw [tidy, tidy, tidyGiven_of_ne_null hj, tidyGiven_of_ne_null (mt hnull.mpr hj), h]

end Presence

/-! ## Tidy forms -/

namespace Shape

mutual

/-- **The tidy form of a document**, if the document has the shape. -/
def tidy : Shape → Json → Option Json
  | .text, j => j.asText.map .str
  | .truth, j => j.asBool.map .bool
  | .whole least greatest, j =>
    j.asInt.bind fun n => if least ≤ n ∧ n ≤ greatest then some (.int n) else none
  | .names l, j => readName (fun s => if s ∈ l then some (.str s) else none) j
  | .list s, .arr items => (readItems s.tidy items).map .arr
  | .list _, _ => none
  | .counts, j => (Codec.read j : Option Counts).map write
  | .record fields, j =>
    Record.read fields.length (fun slots => (tidyFields fields 0 slots).map .obj) j

/-- The members of the tidy form of a record, for its fields from a place on. -/
def tidyFields : List (String × Presence × Shape) → Nat → Slots → Option (List (String × Json))
  | [], _, _ => some []
  | (name, p, s) :: fields, place, slots =>
    (p.tidy s.tidy (slots place name)).bind fun j =>
      (tidyFields fields (place + 1) slots).map (Json.member? name j ++ ·)

end

/-- No record of the shape has a field twice, and standard values are tidy. -/
inductive Proper : Shape → Prop
  | text : Proper .text
  | truth : Proper .truth
  | whole (least greatest : Int) : Proper (.whole least greatest)
  | names (l : List String) : Proper (.names l)
  | list {item : Shape} (h : Proper item) : Proper (.list item)
  | counts : Proper .counts
  | record {fields : List (String × Presence × Shape)} (hkeyed : Assoc.Keyed fields)
      (hstandard : ∀ f ∈ fields, ∀ j, f.2.1 = .standard j → f.2.2.tidy j = some j)
      (h : ∀ f ∈ fields, Proper f.2.2) : Proper (.record fields)

theorem Proper.keyed {fields : List (String × Presence × Shape)} (h : Proper (.record fields)) :
    Assoc.Keyed fields := by
  cases h with
  | record hkeyed => exact hkeyed

theorem tidy_null (s : Shape) : s.tidy .null = none := by
  cases s <;> rfl

section

variable {fields : List (String × Presence × Shape)} {ms ns : List (String × Json)}

/-- Only what the slots hold for the fields counts. -/
theorem tidyFields_congr {place : Nat} {slots slots' : Slots}
    (h : ∀ i name (p : Presence) (s : Shape), fields[i]? = some (name, p, s) →
      p.tidy s.tidy (slots (place + i) name) = p.tidy s.tidy (slots' (place + i) name)) :
    tidyFields fields place slots = tidyFields fields place slots' := by
  induction fields generalizing place with
  | nil => rfl
  | cons field fields ih =>
    obtain ⟨name, p, s⟩ := field
    have hfirst : p.tidy s.tidy (slots place name) = p.tidy s.tidy (slots' place name) :=
      h 0 name p s rfl
    have hrest : tidyFields fields (place + 1) slots = tidyFields fields (place + 1) slots' := by
      apply ih
      intro i name p s hfield
      rw [Nat.add_assoc, Nat.add_comm 1]
      exact h (i + 1) name p s hfield
    rw [tidyFields, tidyFields, hfirst, hrest]

/-- Only what is held for the names of the fields counts. -/
theorem tidyFields_named_congr {place : Nat} {slots slots' : String → Slot}
    (h : ∀ name p s, (name, p, s) ∈ fields →
      p.tidy s.tidy (slots name) = p.tidy s.tidy (slots' name)) :
    tidyFields fields place (fun _ => slots) = tidyFields fields place fun _ => slots' :=
  tidyFields_congr fun _ name p s hfield => h name p s (List.mem_of_getElem? hfield)

/-- Only what an object says of the fields counts. -/
theorem tidy_obj_congr
    (h : ∀ name p s, (name, p, s) ∈ fields →
      p.tidy s.tidy (.among ms name) = p.tidy s.tidy (.among ns name)) :
    (record fields).tidy (.obj ms) = (record fields).tidy (.obj ns) := by
  rw [tidy, tidy, Record.read_obj, Record.read_obj]
  exact congrArg (Option.map Json.obj) (tidyFields_named_congr h)

/-- A tidy record has the names of its fields in their order. -/
theorem sublist_of_tidyFields {place : Nat} {slots : Slots}
    (h : tidyFields fields place slots = some ms) :
    (ms.map Prod.fst).Sublist (fields.map Prod.fst) := by
  induction fields generalizing place ms with
  | nil =>
    cases h
    exact .refl _
  | cons field fields ih =>
    obtain ⟨j?, -, hrest⟩ := Option.bind_eq_some_iff.mp h
    obtain ⟨ns, hns, rfl⟩ := Option.map_eq_some_iff.mp hrest
    cases j? with
    | none => exact (ih hns).cons _
    | some j => exact (ih hns).cons_cons _

/-- One field that has no tidy form is enough. -/
theorem tidyFields_eq_none {place : Nat} {slots : String → Slot} {name : String} {p : Presence}
    {s : Shape} (hfield : (name, p, s) ∈ fields) (hnone : p.tidy s.tidy (slots name) = none) :
    tidyFields fields place (fun _ => slots) = none := by
  induction fields generalizing place with
  | nil => cases hfield
  | cons field fields ih =>
    rw [tidyFields]
    rcases List.mem_cons.mp hfield with rfl | hfield
    · rw [hnone, Option.bind_none]
    · simp [ih hfield]

/-- **An object that has a field twice is no record.** -/
theorem tidy_repeated {name : String} {p : Presence} {s : Shape} {j : Json}
    (hfield : (name, p, s) ∈ fields) (before after : List (String × Json))
    (htwice : Assoc.get? (before ++ after) name ≠ none) :
    (record fields).tidy (.obj (before ++ (name, j) :: after)) = none := by
  have hnone : p.tidy s.tidy (.among (before ++ (name, j) :: after) name) = none := by
    rw [Slot.among_insert_repeated before after htwice]
    rfl
  rw [tidy, Record.read_obj, tidyFields_eq_none hfield hnone, Option.map_none]

end

end Shape

end RemoteShell
