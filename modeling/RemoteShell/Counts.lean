/-!
# Counts by name

A finite map from names to counts in the order of the names.

## Main definitions

* `Counts`: the map, with the proof that its names ascend.
* `Counts.put`, `Counts.count`, `Counts.ofList`.
-/

namespace RemoteShell

/-- Counts by name, in the order of the names. -/
structure Counts where
  entries : List (String × UInt64)
  ascending : entries.Pairwise fun a b => a.1 < b.1

namespace Counts

/-- No counts. -/
def empty : Counts := ⟨[], .nil⟩

/-- The entries with the count of a name set. -/
def putEntry (name : String) (n : UInt64) : List (String × UInt64) → List (String × UInt64)
  | [] => [(name, n)]
  | e :: es =>
    if name < e.1 then (name, n) :: e :: es
    else if name = e.1 then (name, n) :: es
    else e :: putEntry name n es

theorem fst_mem_putEntry {name : String} {n : UInt64} {es : List (String × UInt64)}
    {p : String × UInt64} (h : p ∈ putEntry name n es) : p.1 = name ∨ p ∈ es := by
  induction es with
  | nil => simp_all [putEntry]
  | cons e es ih =>
    unfold putEntry at h
    split at h
    · rcases List.mem_cons.1 h with rfl | h <;> simp_all
    · split at h
      · rcases List.mem_cons.1 h with rfl | h <;> simp_all
      · rcases List.mem_cons.1 h with rfl | h
        · simp
        · rcases ih h with h | h <;> simp [h]

theorem ascending_putEntry (name : String) (n : UInt64) {es : List (String × UInt64)}
    (h : es.Pairwise fun a b => a.1 < b.1) :
    (putEntry name n es).Pairwise fun a b => a.1 < b.1 := by
  induction es with
  | nil => simp [putEntry]
  | cons e es ih =>
    rw [List.pairwise_cons] at h
    unfold putEntry
    split
    · next hlt =>
      refine List.pairwise_cons.2 ⟨?_, List.pairwise_cons.2 h⟩
      intro p hp
      rcases List.mem_cons.1 hp with rfl | hp
      · exact hlt
      · exact String.lt_trans hlt (h.1 p hp)
    · split
      · next heq => exact List.pairwise_cons.2 ⟨fun p hp => heq ▸ h.1 p hp, h.2⟩
      · next hlt hne =>
        refine List.pairwise_cons.2 ⟨?_, ih h.2⟩
        intro p hp
        rcases fst_mem_putEntry hp with hp | hp
        · rcases Std.lt_trichotomy name e.1 with h' | h' | h'
          · exact absurd h' hlt
          · exact absurd h' hne
          · exact hp ▸ h'
        · exact h.1 p hp

/-- The counts with the count of a name set. -/
def put (c : Counts) (name : String) (n : UInt64) : Counts :=
  ⟨putEntry name n c.entries, ascending_putEntry name n c.ascending⟩

/-- The count of a name; zero for a name without one. -/
def count (c : Counts) (name : String) : UInt64 :=
  ((c.entries.find? fun e => e.1 = name).map (·.2)).getD 0

/-- The counts with one more for a name. -/
def increment (c : Counts) (name : String) : Counts := c.put name (c.count name + 1)

/-- The counts of a list of names with their counts; of two counts for one name the later wins. -/
def ofList (es : List (String × UInt64)) : Counts :=
  es.foldl (fun c e => c.put e.1 e.2) empty

end Counts

end RemoteShell
