import RemoteShell.Proofs.Json.Lawful
import RemoteShell.Proofs.Json.Variants

/-!
# Tidy forms as variants

The tidy form of a document says the same as the document, if no object in it has a name twice.  A
record is tidied field by field: the member of a field is brought to the front, or written if it is
left out, and its document is tidied.  What is left in the end is unknown.

## Main definitions

* `Json.Proper`: no object has a name twice
* `Shape.Variant.Halfway`: a record that is tidied but for some fields

## Main results

* `Shape.Variant.of_perm`: members may stand in any order
* `Shape.Variant.of_tidyFields`: the fields of a record are tidied one after the other
* `Shape.Variant.of_tidy`: the tidy form of a document says the same as the document
-/

namespace RemoteShell

/-- No object in the document has a name twice. -/
inductive Json.Proper : Json → Prop
  | null : Proper .null
  | bool (b : Bool) : Proper (.bool b)
  | num (mantissa : Int) (places : Nat) : Proper (.num mantissa places)
  | str (s : String) : Proper (.str s)
  | arr {items : List Json} (h : ∀ j ∈ items, Proper j) : Proper (.arr items)
  | obj {members : List (String × Json)} (hkeyed : Assoc.Keyed members)
      (h : ∀ m ∈ members, Proper m.2) : Proper (.obj members)

namespace Shape.Variant

/-! ## The order of members -/

/-- Members may stand in any order. -/
theorem of_perm (s : Shape) {ms ns : List (String × Json)} (hperm : ms.Perm ns)
    (hkeyed : Assoc.Keyed ms) (before : List (String × Json)) :
    Variant s (.obj (before ++ ms)) (.obj (before ++ ns)) := by
  induction hperm generalizing before with
  | nil => exact .refl _ _
  | cons m _ ih =>
    have hrest := ih (Assoc.Keyed.cons_iff.mp hkeyed).2 (before ++ [m])
    rwa [List.append_assoc, List.append_assoc] at hrest
  | swap m n ms =>
    exact .order s before ms ((Assoc.Keyed.cons_iff.mp hkeyed).1 m List.mem_cons_self).symm
  | trans h _ ih ih' =>
    exact (ih hkeyed before).trans (ih' ((h.map Prod.fst).nodup hkeyed) before)

/-! ## Records -/

section

variable {fields rest : List (String × Presence × Shape)} {name : String} {p : Presence}
  {s : Shape} {ms ns before after : List (String × Json)} {j t : Json} {j? : Option Json}

/-- The table of a record has one entry for a name. -/
theorem eq_of_mem_fields (hkeyed : Assoc.Keyed fields) (h : (name, p, s) ∈ fields) :
    ∀ p' s', (name, p', s') ∈ fields → p' = p ∧ s' = s := by
  intro p' s' h'
  have heq := (hkeyed.get?_eq_some_iff.mpr h').symm.trans (hkeyed.get?_eq_some_iff.mpr h)
  simpa using heq

/-- What stands in for a field is tidy if it has the shape at all. -/
theorem eq_of_standIn (hstandard : ∀ j, p = .standard j → s.tidy j = some j)
    (hstandIn : p.standIn = some j) (ht : s.tidy j = some t) : j = t := by
  cases p with
  | required => exact nomatch hstandIn
  | optional =>
    cases hstandIn
    exact nomatch s.tidy_null.symm.trans ht
  | standard j =>
    cases hstandIn
    exact Option.some.inj ((hstandard j rfl).symm.trans ht)

/-- Members that are no fields may be left out. -/
theorem drop_unknown (h : ∀ m ∈ ms, ∀ p s, (m.1, p, s) ∉ fields) :
    Variant (.record fields) (.obj (before ++ ms)) (.obj before) := by
  induction ms with
  | nil =>
    rw [List.append_nil]
    exact .refl _ _
  | cons m ms ih =>
    have hfirst : Variant (.record fields) (.obj (before ++ ms)) (.obj (before ++ m :: ms)) :=
      .unknown before ms (h m List.mem_cons_self)
    exact hfirst.symm.trans (ih fun n hn => h n (List.mem_cons_of_mem m hn))

/-- The member of a field is brought to the front, or written if it is left out. -/
theorem exists_front (hfield : ∀ p' s', (name, p', s') ∈ fields → p' = p ∧ s' = s)
    (hms : Assoc.Keyed ms) (hbefore : Assoc.get? before name = none)
    (htidy : p.tidy s.tidy (.of .absent (Assoc.get? ms name)) = some j?) :
    ∃ j, (Assoc.get? ms name = some j ∨ p.standIn = some j) ∧ p.tidyGiven s.tidy j = some j? ∧
      Variant (.record fields) (.obj (before ++ ms))
        (.obj (before ++ (name, j) :: Assoc.erase ms name)) := by
  cases hget : Assoc.get? ms name with
  | some j =>
    rw [hget] at htidy
    exact ⟨j, .inl rfl, htidy, .of_perm _ (hms.perm_cons_erase hget) hms before⟩
  | none =>
    rw [hget] at htidy
    obtain ⟨j, hj, htidy⟩ := Option.bind_eq_some_iff.mp htidy
    rw [Assoc.erase_of_get?_eq_none hget]
    refine ⟨j, .inr hj, htidy, .standIn before ms ?_ fun p' s' h => ?_⟩
    · rw [Assoc.get?_append, hbefore, hget, Option.none_or]
    · rw [(hfield p' s' h).1, hj]

/-- The member in front is tidied, or left out. -/
theorem tidy_front (hfield : ∀ p' s', (name, p', s') ∈ fields → p' = p ∧ s' = s)
    (hothers : Assoc.get? (before ++ after) name = none)
    (hj : ∀ t, s.tidy j = some t → Variant s j t) (htidy : p.tidyGiven s.tidy j = some j?) :
    Variant (.record fields) (.obj (before ++ (name, j) :: after))
      (.obj (before ++ Json.member? name j? ++ after)) := by
  rw [List.append_assoc]
  by_cases hnull : j = .null
  · subst hnull
    cases p with
    | optional =>
      cases htidy
      exact .symm (.standIn before after hothers fun p' s' h => by rw [(hfield p' s' h).1]; rfl)
    | _ =>
      have habsurd : (s.tidy .null).map some = some j? := htidy
      rw [tidy_null] at habsurd
      exact nomatch habsurd
  · rw [Presence.tidyGiven_of_ne_null hnull, Option.map_eq_some_iff] at htidy
    obtain ⟨t, ht, rfl⟩ := htidy
    apply Variant.field before after
    intro p' s' h
    rw [(hfield p' s' h).2]
    exact hj t ht

/-- A record is tidied but for some fields: the members of the others stand before the members that
are as they were. -/
structure Halfway (fields rest : List (String × Presence × Shape))
    (before ms : List (String × Json)) : Prop where
  subset : rest ⊆ fields
  keyed_rest : Assoc.Keyed rest
  keyed : Assoc.Keyed ms
  get?_before : ∀ f ∈ rest, Assoc.get? before f.1 = none
  -- What is as it was is a field that is left, or unknown.
  mem_rest : ∀ m ∈ ms, ∀ p s, (m.1, p, s) ∈ fields → (m.1, p, s) ∈ rest

theorem Halfway.start (hkeyed : Assoc.Keyed fields) (hms : Assoc.Keyed ms) :
    Halfway fields fields [] ms :=
  ⟨fun _ h => h, hkeyed, hms, fun f _ => Assoc.get?_nil f.1, fun _ _ _ _ h => h⟩

theorem Halfway.next (h : Halfway fields ((name, p, s) :: rest) before ms) (j? : Option Json) :
    Halfway fields rest (before ++ Json.member? name j?) (Assoc.erase ms name) where
  subset _ hf := h.subset (List.mem_cons_of_mem _ hf)
  keyed_rest := (Assoc.Keyed.cons_iff.mp h.keyed_rest).2
  keyed := h.keyed.erase name
  get?_before f hf := by
    have hne : f.1 ≠ name := (Assoc.Keyed.cons_iff.mp h.keyed_rest).1 f hf
    rw [Assoc.get?_append, h.get?_before f (List.mem_cons_of_mem _ hf), get?_member?,
      if_neg hne.symm, Option.none_or]
  mem_rest m hm p' s' hfield := by
    have hne : m.1 ≠ name := by simpa using List.of_mem_filter hm
    have hmem := List.mem_cons.mp (h.mem_rest m (List.mem_of_mem_filter hm) p' s' hfield)
    exact hmem.resolve_left fun heq => hne (congrArg Prod.fst heq)

/-- The fields of a record are tidied one after the other. -/
theorem of_tidyFields (hkeyed : Assoc.Keyed fields)
    (hstandard : ∀ f ∈ fields, ∀ j, f.2.1 = .standard j → f.2.2.tidy j = some j)
    (hfields : ∀ f ∈ fields, ∀ m ∈ ms, ∀ t, f.2.2.tidy m.2 = some t → Variant f.2.2 m.2 t)
    (h : Halfway fields rest before ms) (place : Nat)
    (htidy : tidyFields rest place (fun _ name => .of .absent (Assoc.get? ms name)) = some ns) :
    Variant (.record fields) (.obj (before ++ ms)) (.obj (before ++ ns)) := by
  induction rest generalizing before ms ns place with
  | nil =>
    cases htidy
    rw [List.append_nil]
    exact drop_unknown fun m hm p s hfield => nomatch h.mem_rest m hm p s hfield
  | cons field rest ih =>
    obtain ⟨name, p, s⟩ := field
    obtain ⟨j?, hj?, htidied⟩ := Option.bind_eq_some_iff.mp htidy
    obtain ⟨ts, hts, rfl⟩ := Option.map_eq_some_iff.mp htidied
    have hmem : (name, p, s) ∈ fields := h.subset List.mem_cons_self
    have honly := eq_of_mem_fields hkeyed hmem
    have hnone : Assoc.get? before name = none := h.get?_before _ List.mem_cons_self
    obtain ⟨j, hfrom, hgiven, hfront⟩ := exists_front honly h.keyed hnone hj?
    have hj : ∀ t, s.tidy j = some t → Variant s j t := by
      intro t ht
      rcases hfrom with hget | hstandIn
      · exact hfields _ hmem _ (Assoc.mem_of_get? hget) t ht
      · obtain rfl : j = t := eq_of_standIn (hstandard _ hmem) hstandIn ht
        exact .refl _ _
    have herased : Assoc.get? (before ++ Assoc.erase ms name) name = none := by
      rw [Assoc.get?_append, hnone, Assoc.get?_erase_self, Option.none_or]
    -- The fields that are left do not miss the member.
    have hrest : tidyFields rest (place + 1)
        (fun _ other => .of .absent (Assoc.get? (Assoc.erase ms name) other)) = some ts := by
      rw [← hts]
      apply tidyFields_named_congr
      intro other p' s' hother
      rw [Assoc.get?_erase_of_ne _ ((Assoc.Keyed.cons_iff.mp h.keyed_rest).1 _ hother)]
    have hothers := ih (fun f hf m hm => hfields f hf m (List.mem_of_mem_filter hm)) (h.next j?)
      (place + 1) hrest
    rw [← List.append_assoc]
    exact (hfront.trans (tidy_front honly herased hj hgiven)).trans hothers

end

/-! ## Numbers, names, lists and counts -/

/-- A whole number is tidy. -/
theorem eq_of_tidy_whole {least greatest : Int} {d t : Json}
    (h : (whole least greatest).tidy d = some t) : d = t := by
  obtain ⟨n, hn, hbounds⟩ := Option.bind_eq_some_iff.mp h
  split at hbounds
  · cases hbounds
    unfold Json.asInt at hn
    split at hn
    · cases hn
      rfl
    · exact nomatch hn
  · exact nomatch hbounds

/-- A name that is written as an object is written as a text. -/
theorem of_tidy_names {l : List String} {d t : Json} (h : (names l).tidy d = some t) :
    Variant (.names l) d t := by
  have hname : ∀ {s}, (if s ∈ l then some (Json.str s) else none) = some t → .str s = t := by
    intro s h
    split at h
    · exact Option.some.inj h
    · exact nomatch h
  rw [tidy] at h
  unfold readName at h
  split at h
  · obtain rfl := hname h
    exact .refl _ _
  · obtain rfl := hname h
    exact .symm (.spelled l _)
  · exact nomatch h

/-- The items of a list are tidied one after the other. -/
theorem of_readItems {s : Shape} {items ts : List Json} (before : List Json)
    (hitems : ∀ j ∈ items, ∀ t, s.tidy j = some t → Variant s j t)
    (htidy : readItems s.tidy items = some ts) :
    Variant (.list s) (.arr (before ++ items)) (.arr (before ++ ts)) := by
  induction items generalizing before ts with
  | nil =>
    cases htidy
    exact .refl _ _
  | cons j items ih =>
    obtain ⟨t, ht, hrest⟩ := Option.bind_eq_some_iff.mp htidy
    obtain ⟨ts, hts, rfl⟩ := Option.map_eq_some_iff.mp hrest
    have htail := ih (before ++ [t]) (fun i hi => hitems i (List.mem_cons_of_mem j hi)) hts
    rw [List.append_assoc, List.append_assoc] at htail
    exact (Variant.item before items (hitems j List.mem_cons_self t ht)).trans htail

/-- A count is read from what is written for it only. -/
theorem eq_write_of_read {j : Json} {n : UInt64} (h : Codec.read j = some n) : j = write n := by
  have htidy : (shape UInt64).tidy j = some (write n) := by
    rw [← rewritten, h, Option.map_some]
  exact eq_of_tidy_whole htidy

theorem eq_of_readCounts {ms : List (String × Json)} {es : List (String × UInt64)}
    (h : readCounts ms = some es) : ms = es.map fun e => (e.1, write e.2) := by
  induction ms generalizing es with
  | nil =>
    cases h
    rfl
  | cons m ms ih =>
    obtain ⟨n, hn, hrest⟩ := Option.bind_eq_some_iff.mp h
    obtain ⟨es, hes, rfl⟩ := Option.map_eq_some_iff.mp hrest
    rw [List.map_cons, ← ih hes, ← eq_write_of_read hn]

theorem of_tidy_counts {ms : List (String × Json)} {t : Json} (hkeyed : Assoc.Keyed ms)
    (h : counts.tidy (.obj ms) = some t) : Variant .counts (.obj ms) t := by
  obtain ⟨c, hc, rfl⟩ := Option.map_eq_some_iff.mp h
  obtain ⟨es, hes, rfl⟩ := Option.map_eq_some_iff.mp hc
  obtain rfl := eq_of_readCounts hes
  have hnodup : (es.map Prod.fst).Nodup := by
    rwa [Assoc.Keyed, List.map_map] at hkeyed
  exact of_perm _ ((Counts.perm_ofList hnodup).symm.map _) hkeyed []

/-! ## Documents -/

/-- **The tidy form of a document says the same as the document.** -/
theorem of_tidy {s : Shape} (hs : s.Proper) {d t : Json} (hd : d.Proper)
    (htidy : s.tidy d = some t) : Variant s d t := by
  induction hs generalizing d t with
  | text =>
    cases d with
    | str =>
      cases htidy
      exact .refl _ _
    | _ => cases htidy
  | truth =>
    cases d with
    | bool =>
      cases htidy
      exact .refl _ _
    | _ => cases htidy
  | whole =>
    rw [eq_of_tidy_whole htidy]
    exact .refl _ _
  | names => exact of_tidy_names htidy
  | list h ih =>
    cases hd with
    | arr hitems =>
      obtain ⟨ts, hts, rfl⟩ := Option.map_eq_some_iff.mp htidy
      exact of_readItems [] (fun j hj t ht => ih (hitems j hj) ht) hts
    | _ => cases htidy
  | counts =>
    cases hd with
    | obj hmembers => exact of_tidy_counts hmembers htidy
    | _ => cases htidy
  | @record fields hkeyed hstandard _ ih =>
    have hobj : ∀ ms, (Json.obj ms).Proper → (record fields).tidy (.obj ms) = some t →
        Variant (.record fields) (.obj ms) t := by
      rintro ms (_ | _ | _ | _ | _ | ⟨hms, hproper⟩) htidy
      obtain ⟨ns, hns, rfl⟩ := Option.map_eq_some_iff.mp htidy
      simp only [Slot.among_of_keyed hms] at hns
      exact of_tidyFields hkeyed hstandard (fun f hf m hm t ht => ih f hf (hproper m hm) ht)
        (.start hkeyed hms) 0 hns
    cases hd with
    | obj hms hproper => exact hobj _ (.obj hms hproper) htidy
    | @arr items hitems =>
      have hlisted : Variant (.record fields) (.obj ((fields.map Prod.fst).zip items))
        (.arr items) := .listed hkeyed (Record.length_le_of_read htidy)
      have hproper : (Json.obj ((fields.map Prod.fst).zip items)).Proper :=
        .obj (keyed_zip hkeyed items) fun m hm => hitems m.2 (List.of_mem_zip hm).2
      exact hlisted.symm.trans (hobj _ hproper (hlisted.tidy_eq.trans htidy))
    | _ => cases htidy

end Shape.Variant

end RemoteShell
