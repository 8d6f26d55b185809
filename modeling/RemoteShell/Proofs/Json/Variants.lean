import RemoteShell.Proofs.Counts.Entries
import RemoteShell.Proofs.Json.Shapes

/-!
# Variants of documents

Two documents may say the same to a reader.  A record may have members that are no fields of it, and
its members may stand in any order.  A field may be left out, or be written as what stands in for
it.  A record may be an array of its fields, and a name may be an object.  All this may happen
anywhere inside a document, and none of it changes the tidy form.

## Main definitions

* `Shape.Variant`: documents that say the same

## Main results

* `Shape.Variant.tidy_eq`: variants of a document have the same tidy form
-/

namespace RemoteShell.Shape

/-! ## Variants -/

/-- **Documents that say the same**, under a shape that both may have. -/
inductive Variant : Shape → Json → Json → Prop
  | refl (s : Shape) (d : Json) : Variant s d d
  | symm {s : Shape} {d d' : Json} (h : Variant s d d') : Variant s d' d
  | trans {s : Shape} {d d' d'' : Json} (h : Variant s d d') (h' : Variant s d' d'') :
    Variant s d d''
  -- A record has a member that is no field of it.
  | unknown {fields : List (String × Presence × Shape)} {name : String} {j : Json}
      (before after : List (String × Json)) (h : ∀ p s, (name, p, s) ∉ fields) :
    Variant (.record fields) (.obj (before ++ after)) (.obj (before ++ (name, j) :: after))
  -- A field is written although it says what leaving it out says.
  | standIn {fields : List (String × Presence × Shape)} {name : String} {j : Json}
      (before after : List (String × Json)) (habsent : Assoc.get? (before ++ after) name = none)
      (h : ∀ p s, (name, p, s) ∈ fields → p.standIn = some j) :
    Variant (.record fields) (.obj (before ++ after)) (.obj (before ++ (name, j) :: after))
  -- Two members have changed places.
  | order (s : Shape) {m n : String × Json} (before after : List (String × Json))
      (h : m.1 ≠ n.1) :
    Variant s (.obj (before ++ m :: n :: after)) (.obj (before ++ n :: m :: after))
  -- A record is an array, which may end before its last fields.
  | listed {fields : List (String × Presence × Shape)} {items : List Json}
      (hkeyed : Assoc.Keyed fields) (h : items.length ≤ fields.length) :
    Variant (.record fields) (.obj ((fields.map Prod.fst).zip items)) (.arr items)
  -- A name is an object.
  | spelled (l : List String) (name : String) :
    Variant (.names l) (.str name) (.obj [(name, .null)])
  -- The documents of a field say the same.
  | field {fields : List (String × Presence × Shape)} {name : String} {j j' : Json}
      (before after : List (String × Json))
      (h : ∀ p s, (name, p, s) ∈ fields → Variant s j j') :
    Variant (.record fields) (.obj (before ++ (name, j) :: after))
      (.obj (before ++ (name, j') :: after))
  -- The items of a list say the same.
  | item {s : Shape} {j j' : Json} (before after : List Json) (h : Variant s j j') :
    Variant (.list s) (.arr (before ++ j :: after)) (.arr (before ++ j' :: after))

/-! ## What variants leave as it is -/

section

variable {names : List String} {name : String}

theorem keyed_zip (h : names.Nodup) (items : List Json) : Assoc.Keyed (names.zip items) := by
  rw [Assoc.Keyed, List.zip_eq_zip_take_min, List.map_fst_zip (by simp)]
  exact (List.take_sublist _ _).nodup h

/-- In a list of names with their items, a name has the item at its place. -/
theorem get?_zip (hnodup : names.Nodup) (items : List Json) {i : Nat}
    (hname : names[i]? = some name) : Assoc.get? (names.zip items) name = items[i]? := by
  induction names generalizing items i with
  | nil => simp at hname
  | cons first names ih =>
    obtain ⟨hfirst, hnames⟩ := List.nodup_cons.mp hnodup
    cases items with
    | nil => simp
    | cons item items =>
      rw [List.zip_cons_cons, Assoc.get?_cons]
      cases i with
      | zero =>
        obtain rfl : first = name := by simpa using hname
        simp
      | succ i =>
        have hmem : name ∈ names := List.mem_of_getElem? hname
        rw [if_neg (ne_of_mem_of_not_mem hmem hfirst).symm, ih hnames items hname]
        rfl

end

/-- Counts are read member by member. -/
theorem readCounts_cons_map {α : Type} (f : List (String × UInt64) → α) (m : String × Json)
    (ms : List (String × Json)) :
    (readCounts (m :: ms)).map f =
      (Codec.read m.2 : Option UInt64).bind fun n =>
        (readCounts ms).map fun es => f ((m.1, n) :: es) := by
  rw [readCounts, Option.map_bind]
  simp only [Function.comp_def, Option.map_map]

/-- Neighbours may change places before counts are made of them. -/
theorem readCounts_swap {m n : String × Json} (before after : List (String × Json))
    (h : m.1 ≠ n.1) (c : Counts) :
    (readCounts (before ++ m :: n :: after)).map (List.foldl (fun c e => c.put e.1 e.2) c) =
      (readCounts (before ++ n :: m :: after)).map (List.foldl (fun c e => c.put e.1 e.2) c) := by
  induction before generalizing c with
  | nil =>
    simp only [List.nil_append, readCounts_cons_map, List.foldl_cons, c.put_comm h]
    cases (Codec.read m.2 : Option UInt64) <;> cases (Codec.read n.2 : Option UInt64) <;> rfl
  | cons e before ih =>
    simp only [List.cons_append, readCounts_cons_map, List.foldl_cons]
    exact Option.bind_congr fun n _ => ih (c.put e.1 n)

theorem readItems_congr {α : Type} {read : Json → Option α} {j j' : Json}
    (before after : List Json) (h : read j = read j') :
    readItems read (before ++ j :: after) = readItems read (before ++ j' :: after) := by
  induction before with
  | nil => rw [List.nil_append, List.nil_append, readItems, readItems, h]
  | cons i before ih => rw [List.cons_append, List.cons_append, readItems, readItems, ih]

/-- A name that is written as an object has one member only. -/
theorem readName_obj_of_lt {α : Type} (f : String → Option α) {ms : List (String × Json)}
    (h : 1 < ms.length) : readName f (.obj ms) = none := by
  unfold readName
  split
  · next heq => exact nomatch heq
  · next heq =>
    cases heq
    exact absurd h (Nat.lt_irrefl 1)
  · rfl

/-- The order of members does not matter, whatever the shape. -/
theorem tidy_order (s : Shape) {m n : String × Json} (before after : List (String × Json))
    (h : m.1 ≠ n.1) :
    s.tidy (.obj (before ++ m :: n :: after)) = s.tidy (.obj (before ++ n :: m :: after)) := by
  cases s with
  | counts =>
    show ((readCounts _).map Counts.ofList).map write = ((readCounts _).map Counts.ofList).map write
    exact congrArg (Option.map write) (readCounts_swap before after h .empty)
  | record fields =>
    apply tidy_obj_congr
    intro name p s _
    rw [Slot.among_swap before after h]
  | names l =>
    rw [tidy, tidy, readName_obj_of_lt _ (by simp; omega), readName_obj_of_lt _ (by simp; omega)]
  | _ => rfl

/-- An array of the fields is as good as an object that has them by name. -/
theorem tidy_listed {fields : List (String × Presence × Shape)} {items : List Json}
    (hkeyed : Assoc.Keyed fields) (h : items.length ≤ fields.length) :
    (record fields).tidy (.obj ((fields.map Prod.fst).zip items)) =
      (record fields).tidy (.arr items) := by
  rw [tidy, tidy, Record.read_obj, Record.read_arr _ _ h]
  refine congrArg (Option.map Json.obj) (tidyFields_congr fun i name p s hfield => ?_)
  have hname : (fields.map Prod.fst)[i]? = some name := by rw [List.getElem?_map, hfield]; rfl
  rw [Slot.among_of_keyed (keyed_zip hkeyed items), get?_zip hkeyed items hname, Nat.zero_add]
  cases items[i]? <;> rfl

namespace Variant

variable {s : Shape} {d d' : Json}

/-- Nothing else says what `null` says. -/
theorem null_iff (h : Variant s d d') : d = .null ↔ d' = .null := by
  induction h with
  | refl => rfl
  | symm _ ih => exact ih.symm
  | trans _ _ ih ih' => exact ih.trans ih'
  | _ => exact ⟨nofun, nofun⟩

/-- **Variants of a document have the same tidy form.** -/
theorem tidy_eq (h : Variant s d d') : s.tidy d = s.tidy d' := by
  induction h with
  | refl => rfl
  | symm _ ih => exact ih.symm
  | trans _ _ ih ih' => exact ih.trans ih'
  | unknown before after h =>
    apply tidy_obj_congr
    intro name p s hmem
    rw [Slot.among_insert_of_ne]
    rintro rfl
    exact h p s hmem
  | @standIn fields name j before after habsent h =>
    apply tidy_obj_congr
    intro other p s hmem
    by_cases hother : other = name
    · subst hother
      rw [Slot.among_of_get?_eq_none habsent, Slot.among_insert_self before after habsent]
      exact Presence.tidy_absent (h p s hmem)
    · rw [Slot.among_insert_of_ne before after hother]
  | order s before after h => exact tidy_order s before after h
  | listed hkeyed h => exact tidy_listed hkeyed h
  | spelled => rfl
  | @field fields name j j' before after h ih =>
    apply tidy_obj_congr
    intro other p s hmem
    by_cases hother : other = name
    · subst hother
      by_cases hnone : Assoc.get? (before ++ after) other = none
      · rw [Slot.among_insert_self before after hnone, Slot.among_insert_self before after hnone]
        exact Presence.tidy_given_congr (ih p s hmem) (h p s hmem).null_iff
      · rw [Slot.among_insert_repeated before after hnone,
          Slot.among_insert_repeated before after hnone]
    · rw [Slot.among_insert_of_ne before after hother, Slot.among_insert_of_ne before after hother]
  | item before after _ ih => rw [tidy, tidy, readItems_congr before after ih]

end Variant

end RemoteShell.Shape
