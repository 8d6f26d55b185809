import RemoteShell.Proofs.Cells.Queues

/-!
# Handles on shared cells

Every cell that was ever made has as many handles as users, also when its key has left the table, or
has got another cell meanwhile.  So a cell that nobody uses can be told from the cell alone: it has
no handles, its lock is free and nobody waits for it.

## Main definitions

* `Cells.Attended`: the handles and the queues of all cells agree with the users

## Main results

* `Attended.enter_openCell`, `Attended.release`: what users do
* `Attended.left_alone`: a cell without users
-/

namespace RemoteShell.Cells

variable {κ σ : Type} {cs ds : Cells κ σ} {us vs : List (User κ)} {u : User κ} {n : CellId}

/-- **All cells agree with their users**, whether they are in the table or not. -/
structure Attended (cs : Cells κ σ) (us : List (User κ)) : Prop extends Peopled cs us where
  made : ∀ u ∈ us, u.cell < cs.next
  handles : ∀ n x, cs.cell? n = some x → x.handles = us.countP (·.cell = n)
  -- No call is two users.
  callers : (us.map (·.caller)).Nodup

namespace Attended

protected theorem empty : Attended (.empty : Cells κ σ) ([] : List (User κ)) :=
  ⟨.empty, List.forall_mem_nil _, nofun, List.nodup_nil⟩

theorem perm (h : Attended cs us) (hp : us.Perm vs) : Attended cs vs where
  toPeopled := h.toPeopled.mono fun u hu => ⟨u, hp.mem_iff.mp hu, rfl, rfl⟩
  made u hu := h.made u (hp.mem_iff.mpr hu)
  handles n x hx := (h.handles n x hx).trans (hp.countP_eq _)
  callers := (hp.map _).nodup_iff.mp h.callers

/-- The table has nothing to do with it. -/
theorem congr (h : Attended cs us) (hcells : ds.cells = cs.cells) (hnext : ds.next = cs.next) :
    Attended ds us where
  toPeopled := (peopled_congr hcells).mpr h.toPeopled
  made u hu := hnext.symm ▸ h.made u hu
  handles n x hx := h.handles n x ((congrArg (Assoc.get? · n) hcells).symm.trans hx)
  callers := h.callers

/-- A value changes. -/
theorem setValue (h : Attended cs us) (n : CellId) (v : σ) : Attended (cs.setValue n v) us := by
  have hcell (m : CellId) (x : Cell σ) (hx : (cs.setValue n v).cell? m = some x) :
      ∃ y, cs.cell? m = some y ∧ x.queue = y.queue ∧ x.handles = y.handles := by
    rw [Cells.setValue, cell?_modify] at hx
    split at hx
    · obtain ⟨y, hy, rfl⟩ := Option.map_eq_some_iff.mp hx
      exact ⟨y, hy, rfl, rfl⟩
    · exact ⟨x, hx, rfl, rfl⟩
  refine ⟨⟨fun m x hx => ?_, fun m x hx => ?_⟩, h.made, fun m x hx => ?_, h.callers⟩
  · obtain ⟨y, hy, hqueue, -⟩ := hcell m x hx
    exact hqueue ▸ h.once m y hy
  · obtain ⟨y, hy, hqueue, -⟩ := hcell m x hx
    exact hqueue ▸ h.users m y hy
  · obtain ⟨y, hy, -, hhandles⟩ := hcell m x hx
    exact hhandles.trans (h.handles m y hy)

/-- **A cell without users**: its lock is free, and nobody has a handle on it. -/
theorem left_alone (h : Attended cs us) {x : Cell σ} (hx : cs.cell? n = some x)
    (hnobody : ∀ u ∈ us, u.cell ≠ n) : x.holder = none ∧ x.handles = 0 := by
  constructor
  · refine Option.eq_none_iff_forall_ne_some.mpr fun t ht => ?_
    obtain ⟨u, hu, hcell, -⟩ := h.users n x hx t (by simp [Cell.queue, ht])
    exact hnobody u hu hcell
  · rw [h.handles n x hx, List.countP_eq_zero]
    simpa using hnobody

/-- A user leaves the queue and gives back its handle. -/
theorem release (h : Attended cs (us ++ [u])) : Attended (cs.release u.cell u.caller) us := by
  have hcallers := h.callers
  rw [List.map_append, List.nodup_append] at hcallers
  have hother : ∀ v ∈ us, v.caller ≠ u.caller := fun v hv =>
    hcallers.2.2 _ (List.mem_map_of_mem hv) _ (List.mem_singleton_self _)
  refine ⟨h.toPeopled.release hother, fun v hv => h.made v (List.mem_append_left _ hv),
    fun n x hx => ?_, hcallers.1⟩
  rw [Cells.release, drop, leave, cell?_modify, cell?_modify] at hx
  by_cases hn : n = u.cell
  · rw [if_pos hn, if_pos hn, Option.map_map] at hx
    obtain ⟨y, hy, rfl⟩ := Option.map_eq_some_iff.mp hx
    have hhandles := h.handles n y hy
    simp only [List.countP_append, List.countP_singleton, hn, decide_true, if_true] at hhandles
    simp [hhandles, hn]
  · rw [if_neg hn, if_neg hn] at hx
    have hhandles := h.handles n x hx
    simpa [List.countP_append, Ne.symm hn] using hhandles

section

variable [DecidableEq κ]

/-- A key gets a cell, which is new or the one that it has. -/
theorem withCell (h : Attended cs us) (k : κ) (v : σ) : Attended (cs.withCell k v).2 us := by
  refine ⟨h.toPeopled.withCell k v, fun u hu => ?_, fun n x hx => ?_, h.callers⟩
  · unfold Cells.withCell
    split
    · exact h.made u hu
    · exact Nat.lt_succ_of_lt (h.made u hu)
  · unfold Cells.withCell at hx
    split at hx
    · exact h.handles n x hx
    · by_cases hn : n = cs.next
      · subst hn
        obtain rfl := Option.some.inj ((Assoc.get?_put_self ..).symm.trans hx)
        -- The users have cells that were made before.
        refine (List.countP_eq_zero.mpr fun u hu => ?_).symm
        simpa using Nat.ne_of_lt (h.made u hu)
      · exact h.handles n x ((Assoc.get?_put_of_ne _ _ hn).symm.trans hx)

/-- A call opens the cell of a key and asks for its lock: it is a new user. -/
theorem enter_openCell (h : Attended cs us) (k : κ) (v : σ) {t : CallId}
    (hmade : (cs.openCell k v).1 < (cs.openCell k v).2.next) (ht : ∀ u ∈ us, u.caller ≠ t) :
    Attended ((cs.openCell k v).2.enter (cs.openCell k v).1 t)
      (us ++ [⟨k, t, (cs.openCell k v).1, false⟩]) := by
  refine ⟨h.toPeopled.enter_openCell k v ht, fun u hu => ?_, fun n x hx => ?_, ?_⟩
  · rcases List.mem_append.mp hu with hu | hu
    · exact (h.withCell k v).made u hu
    · obtain rfl := List.mem_singleton.mp hu
      exact hmade
  · replace h := h.withCell k v
    unfold Cells.openCell at hx ⊢
    generalize cs.withCell k v = w at *
    obtain ⟨c, cs⟩ := w
    rw [Cells.enter, cell?_modify, cell?_modify] at hx
    by_cases hn : n = c
    · rw [if_pos hn, if_pos hn, Option.map_map] at hx
      obtain ⟨y, hy, rfl⟩ := Option.map_eq_some_iff.mp hx
      simp [List.countP_append, h.handles n y hy, hn]
    · rw [if_neg hn, if_neg hn] at hx
      simp [List.countP_append, h.handles n x hx, Ne.symm hn]
  · rw [List.map_append, List.nodup_append]
    refine ⟨h.callers, by simp, ?_⟩
    simpa using ht

end

end Attended

/-- A key that has no cell gets a new one, and the call that has asked for it gets the lock. -/
theorem cell?_enter_openCell_of_unfiled [DecidableEq κ] {k : κ} (hk : cs.table.get? k = none)
    (v : σ) (t : CallId) :
    ((cs.openCell k v).2.enter (cs.openCell k v).1 t).cell? (cs.openCell k v).1 =
      some ⟨v, some t, [], 1⟩ := by
  have hfresh : (cs.withCell k v).2.cell? (cs.withCell k v).1 = some (.fresh v) := by
    unfold Cells.withCell
    rw [hk]
    exact Assoc.get?_put_self ..
  unfold Cells.openCell
  generalize cs.withCell k v = w at *
  obtain ⟨c, cs⟩ := w
  rw [Cells.enter, cell?_modify, cell?_modify, if_pos rfl, if_pos rfl, hfresh]
  rfl

end RemoteShell.Cells
