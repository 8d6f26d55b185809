/-!
# Association lists

Finite maps as lists of pairs in which every key stands at most once.

## Main definitions

* `Assoc.get?`, `Assoc.put`, `Assoc.erase`, `Assoc.update`.
* `Assoc.Keyed`: every key stands at most once.

## Main results

* `get?_put_self`, `get?_put_of_ne`, `get?_erase_self`, `get?_erase_of_ne`: what a look-up finds
  after each operation.
* `Keyed.perm_cons_erase`: the entry of a key and the map without the key are the whole map.
-/

namespace RemoteShell

/-- A finite map as a list of pairs. -/
abbrev Assoc (κ α : Type) := List (κ × α)

namespace Assoc

variable {κ α : Type} [DecidableEq κ]

/-- The value of a key. -/
def get? (m : Assoc κ α) (k : κ) : Option α := (m.find? fun p => p.1 = k).map (·.2)

/-- The map without a key. -/
def erase (m : Assoc κ α) (k : κ) : Assoc κ α := m.filter fun p => p.1 ≠ k

/-- The map with a new value for a key; the key moves to the end. -/
def put (m : Assoc κ α) (k : κ) (a : α) : Assoc κ α := m.erase k ++ [(k, a)]

/-- The map with the value of a key replaced in its place; nothing changes for other keys. -/
def update (m : Assoc κ α) (k : κ) (f : α → α) : Assoc κ α :=
  m.map fun p => if p.1 = k then (p.1, f p.2) else p

/-- Has the map a value for a key? -/
def has (m : Assoc κ α) (k : κ) : Bool := (m.get? k).isSome

@[simp] theorem get?_nil (k : κ) : get? ([] : Assoc κ α) k = none := rfl

theorem get?_cons (p : κ × α) (m : Assoc κ α) (k : κ) :
    get? (p :: m) k = if p.1 = k then some p.2 else get? m k := by
  by_cases h : p.1 = k <;> simp [get?, h]

@[simp] theorem get?_erase_self (m : Assoc κ α) (k : κ) : (m.erase k).get? k = none := by
  induction m with
  | nil => rfl
  | cons p m ih =>
    by_cases h : p.1 = k <;> simp_all [erase, get?_cons]

theorem get?_erase_of_ne (m : Assoc κ α) {k l : κ} (h : l ≠ k) :
    (m.erase k).get? l = m.get? l := by
  induction m with
  | nil => rfl
  | cons p m ih =>
    by_cases hk : p.1 = k
    · have : p.1 ≠ l := fun e => h (e ▸ hk)
      simp_all [erase, get?_cons]
    · simp_all [erase, get?_cons]

theorem get?_filter (f : κ → Bool) (m : Assoc κ α) (k : κ) :
    get? (m.filter fun p => f p.1) k = if f k then m.get? k else none := by
  induction m with
  | nil => simp
  | cons p m ih =>
    by_cases h : p.1 = k <;> by_cases hp : f p.1 = true <;> simp_all [get?_cons]

theorem get?_append (m n : Assoc κ α) (k : κ) :
    get? (m ++ n) k = (m.get? k).or (n.get? k) := by
  induction m with
  | nil => rfl
  | cons p m ih =>
    by_cases h : p.1 = k <;> simp_all [get?_cons]

@[simp] theorem get?_put_self (m : Assoc κ α) (k : κ) (a : α) : (m.put k a).get? k = some a := by
  simp [put, get?_append, get?_cons]

theorem get?_put_of_ne (m : Assoc κ α) {k l : κ} (a : α) (h : l ≠ k) :
    (m.put k a).get? l = m.get? l := by
  simp [put, get?_append, get?_cons, get?_erase_of_ne m h, Ne.symm h]

theorem get?_update (m : Assoc κ α) (k l : κ) (f : α → α) :
    (m.update k f).get? l = if l = k then (m.get? l).map f else m.get? l := by
  induction m with
  | nil => simp [update]
  | cons p m ih =>
    by_cases h : p.1 = k <;> by_cases hl : p.1 = l <;> by_cases hlk : l = k <;>
      simp_all [update, get?_cons]

/-! ## Every key once -/

/-- Every key stands at most once. -/
def Keyed (m : Assoc κ α) : Prop := (m.map Prod.fst).Nodup

theorem mem_of_get? {m : Assoc κ α} {k : κ} {a : α} (h : m.get? k = some a) : (k, a) ∈ m := by
  obtain ⟨p, hp, rfl⟩ := Option.map_eq_some_iff.mp h
  have hk : p.1 = k := by simpa using List.find?_some hp
  exact hk ▸ List.mem_of_find?_eq_some hp

/-- Without a key that no entry has, the map stays as it is. -/
theorem erase_eq_self {m : Assoc κ α} {k : κ} (h : ∀ p ∈ m, p.1 ≠ k) : erase m k = m :=
  List.filter_eq_self.mpr fun p hp => by simpa using h p hp

theorem erase_of_get?_eq_none {m : Assoc κ α} {k : κ} (h : m.get? k = none) : erase m k = m :=
  erase_eq_self fun p hp => by
    simpa using List.find?_eq_none.mp (Option.map_eq_none_iff.mp h) p hp

/-- Without a key it does not matter what was put under it. -/
theorem erase_put (m : Assoc κ α) (k : κ) (a : α) : (m.put k a).erase k = m.erase k := by
  rw [put, erase, erase, List.filter_append, List.filter_filter]
  simp

namespace Keyed

variable {m : Assoc κ α} {k : κ} {a : α}

omit [DecidableEq κ] in
protected theorem nil : Keyed ([] : Assoc κ α) := List.nodup_nil

omit [DecidableEq κ] in
theorem cons_iff {p : κ × α} : Keyed (p :: m) ↔ (∀ q ∈ m, q.1 ≠ p.1) ∧ Keyed m := by
  simp only [Keyed, List.map_cons, List.nodup_cons, List.mem_map, not_exists, not_and, ne_eq]

protected theorem erase (h : m.Keyed) (k : κ) : Keyed (Assoc.erase m k) :=
  (List.filter_sublist.map _).nodup h

protected theorem put (h : m.Keyed) (k : κ) (a : α) : (m.put k a).Keyed := by
  unfold Keyed Assoc.put
  rw [List.map_append, List.nodup_append]
  refine ⟨h.erase k, by simp, ?_⟩
  intro l hl l' hl'
  simp only [List.mem_map, Assoc.erase, List.mem_filter] at hl
  obtain ⟨p, ⟨-, hp⟩, rfl⟩ := hl
  simp_all

theorem get?_eq_some_iff (h : m.Keyed) : m.get? k = some a ↔ (k, a) ∈ m := by
  refine ⟨mem_of_get?, fun hm => ?_⟩
  induction m with
  | nil => simp at hm
  | cons p m ih =>
    rcases List.mem_cons.mp hm with rfl | hm
    · simp [get?_cons]
    · have hne : p.1 ≠ k := fun e => (cons_iff.mp h).1 (k, a) hm e.symm
      rw [get?_cons, if_neg hne]
      exact ih (cons_iff.mp h).2 hm

/-- The entry of a key and the map without the key make up the map. -/
theorem perm_cons_erase (h : m.Keyed) (hk : m.get? k = some a) :
    m.Perm ((k, a) :: Assoc.erase m k) := by
  induction m with
  | nil => simp at hk
  | cons p m ih =>
    obtain ⟨hp, hm⟩ := cons_iff.mp h
    rw [get?_cons] at hk
    by_cases e : p.1 = k
    · subst e
      rw [if_pos rfl, Option.some.injEq] at hk
      subst hk
      have : Assoc.erase (p :: m) p.1 = m := by
        simpa [Assoc.erase] using erase_eq_self hp
      rw [this]
    · rw [if_neg e] at hk
      have : Assoc.erase (p :: m) k = p :: Assoc.erase m k := by simp [Assoc.erase, e]
      rw [this]
      exact ((ih hm hk).cons p).trans (.swap ..)

end Keyed

end Assoc

end RemoteShell
