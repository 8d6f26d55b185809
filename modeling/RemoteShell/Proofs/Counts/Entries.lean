import Mathlib.Data.List.Nodup
import Mathlib.Data.String.Basic
import RemoteShell.Counts

/-!
# The entries of counts

The entries of counts ascend by their names, so counts are known by what stands among their entries.
Setting the counts of two names can be done in either order, and counts are made again from their
own entries.

## Main results

* `mem_putEntry_iff`: what stands among the entries when a count has been set
* `put_comm`: the counts of two names are set in either order
* `perm_ofList`: counts have the entries of which they are made
* `ofList_entries`: counts are made again from their entries
-/

namespace RemoteShell.Counts

variable {name other : String} {n : UInt64} {es : List (String × UInt64)} {c d : Counts}
  {x : String × UInt64}

/-- What stands among the entries when the count of a name has been set. -/
theorem mem_putEntry_iff (h : es.Pairwise fun a b => a.1 < b.1) :
    x ∈ putEntry name n es ↔ x = (name, n) ∨ x ∈ es ∧ x.1 ≠ name := by
  induction es with
  | nil => simp [putEntry]
  | cons e es ih =>
    obtain ⟨hfirst, hrest⟩ := List.pairwise_cons.mp h
    unfold putEntry
    split
    · next hlt =>
      have hothers : ∀ y ∈ e :: es, y.1 ≠ name := by
        intro y hy
        rcases List.mem_cons.mp hy with rfl | hy
        · exact hlt.ne'
        · exact (hlt.trans (hfirst y hy)).ne'
      rw [List.mem_cons]
      exact or_congr_right (and_iff_left_of_imp (hothers x)).symm
    · split
      · next heq =>
        have hothers : ∀ y ∈ es, y.1 ≠ name := fun y hy => heq ▸ (hfirst y hy).ne'
        rw [List.mem_cons, List.mem_cons, or_and_right]
        refine or_congr_right ⟨fun hx => .inr ⟨hx, hothers x hx⟩, ?_⟩
        rintro (⟨rfl, hne⟩ | ⟨hx, -⟩)
        · exact absurd heq.symm hne
        · exact hx
      · next hne =>
        rw [List.mem_cons, ih hrest, List.mem_cons, or_and_right, or_left_comm]
        refine or_congr_right (or_congr_left (and_iff_left_of_imp ?_).symm)
        rintro rfl
        exact Ne.symm hne

theorem nodup_names (c : Counts) : (c.entries.map Prod.fst).Nodup :=
  List.pairwise_map.mpr (c.ascending.imp fun h => h.ne)

/-- A name has the count that stands in its entry. -/
theorem count_eq_of_mem (h : (name, n) ∈ c.entries) : c.count name = n := by
  cases hfind : c.entries.find? fun e => e.1 = name with
  | none => exact absurd (List.find?_eq_none.mp hfind _ h) (by simp)
  | some x =>
    have hname : x.1 = name := by simpa using List.find?_some hfind
    obtain rfl : x = (name, n) :=
      List.inj_on_of_nodup_map c.nodup_names (List.mem_of_find?_eq_some hfind) h hname
    rw [count, hfind]
    rfl

/-- A name without an entry has the count zero. -/
theorem count_eq_zero (h : ∀ n, (name, n) ∉ c.entries) : c.count name = 0 := by
  have hfind : (c.entries.find? fun e => e.1 = name) = none := by
    refine List.find?_eq_none.mpr fun x hx hname => ?_
    obtain rfl : x.1 = name := by simpa using hname
    exact h x.2 hx
  rw [count, hfind]
  rfl

/-! ## Counts by their entries -/

/-- Counts with the same entries are equal, because their entries ascend. -/
theorem ext_of_mem (h : ∀ x, x ∈ c.entries ↔ x ∈ d.entries) : c = d := by
  obtain ⟨es, hes⟩ := c
  obtain ⟨fs, hfs⟩ := d
  have hperm : es.Perm fs := by
    rw [List.perm_ext_iff_of_nodup (hes.imp fun hlt => ne_of_apply_ne Prod.fst hlt.ne)
      (hfs.imp fun hlt => ne_of_apply_ne Prod.fst hlt.ne)]
    exact h
  have heq : es = fs :=
    hperm.eq_of_pairwise (fun a b _ _ hab hba => absurd hba hab.asymm) hes hfs
  subst heq
  rfl

/-- **The counts of two names are set in either order.** -/
theorem put_comm (c : Counts) (h : name ≠ other) (m n : UInt64) :
    (c.put name m).put other n = (c.put other n).put name m := by
  refine ext_of_mem fun x => ?_
  simp only [put, mem_putEntry_iff c.ascending,
    mem_putEntry_iff (ascending_putEntry _ _ c.ascending)]
  grind

/-! ## Counts from entries -/

/-- A name that has no entry yet gets one. -/
theorem perm_putEntry (h : ∀ e ∈ es, e.1 ≠ name) : (putEntry name n es).Perm ((name, n) :: es) := by
  induction es with
  | nil => exact .refl _
  | cons e es ih =>
    unfold putEntry
    split
    · exact .refl _
    · rw [if_neg (h e List.mem_cons_self).symm]
      exact ((ih fun f hf => h f (List.mem_cons_of_mem e hf)).cons e).trans (.swap ..)

/-- Counts of different names are all kept. -/
theorem perm_foldl_put (h : ((c.entries ++ es).map Prod.fst).Nodup) :
    (es.foldl (fun c e => c.put e.1 e.2) c).entries.Perm (c.entries ++ es) := by
  induction es generalizing c with
  | nil => rw [List.append_nil]; exact .refl _
  | cons e es ih =>
    have hmiddle : (c.entries ++ e :: es).Perm (e :: (c.entries ++ es)) := List.perm_middle
    have hnodup := (hmiddle.map Prod.fst).nodup h
    have hnew : ∀ f ∈ c.entries, f.1 ≠ e.1 := by
      rintro f hf heq
      refine (List.nodup_cons.mp hnodup).1 ?_
      exact List.mem_map.mpr ⟨f, List.mem_append_left es hf, heq⟩
    have hput : ((c.put e.1 e.2).entries ++ es).Perm (e :: (c.entries ++ es)) :=
      (perm_putEntry hnew).append_right es
    exact (ih ((hput.map Prod.fst).nodup_iff.mpr hnodup)).trans (hput.trans hmiddle.symm)

/-- **Counts that are made of entries with different names have these entries.** -/
theorem perm_ofList (h : (es.map Prod.fst).Nodup) : (ofList es).entries.Perm es :=
  perm_foldl_put (c := empty) h

/-- **Counts are made again from their entries.** -/
theorem ofList_entries (c : Counts) : ofList c.entries = c :=
  ext_of_mem fun _ => (perm_ofList c.nodup_names).mem_iff

end RemoteShell.Counts
