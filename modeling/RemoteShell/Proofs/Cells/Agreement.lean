import RemoteShell.Cells

/-!
# Tables that agree on a key

Two tables of cells agree on a key if they hold the same for it.  The cell of the key may have
another number in the other table, for numbers are given out in the order in which cells are made;
and there may be more than one, for a cell that has left the table is still used by the calls that
have a handle on it.  So what agrees is told by pairs of numbers, and more pairs come when the key
gets a new cell.

What is done in both tables to a pair of cells keeps the agreement, and so does what is done in one
of them to a cell that is in no pair.

## Main definitions

* `Cells.Agree`: two tables agree on a key

## Main results

* `Agree.enter_openCell`, `Agree.release`, `Agree.setValue`, `Agree.retire`: done in both tables
* `Agree.enter_openCell_left`, `Agree.release_left`, `Agree.setValue_left`, `Agree.retire_left`:
  done in one of them
-/

namespace RemoteShell.Cells

variable {κ σ : Type} [DecidableEq κ] {R : CellId → CellId → Prop} {k l : κ} {cs ds : Cells κ σ}
  {n m : CellId}

/-- **Two tables agree on a key**: it has no cell in either of them or a pair of cells, and paired
cells are the same. -/
structure Agree (R : CellId → CellId → Prop) (k : κ) (cs ds : Cells κ σ) : Prop where
  filed : Option.Rel R (cs.table.get? k) (ds.table.get? k)
  cells : ∀ n m, R n m → cs.cell? n = ds.cell? m
  made : ∀ n m, R n m → n < cs.next ∧ m < ds.next
  paired : ∀ n m n' m', R n m → R n' m' → (n = n' ↔ m = m')

namespace Agree

theorem value?_eq (h : Agree R k cs ds) (hnm : R n m) : cs.value? n = ds.value? m := by
  rw [value?, value?, h.cells n m hnm]

theorem admits_eq (h : Agree R k cs ds) (hnm : R n m) (t : CallId) :
    cs.admits n t = ds.admits m t := by
  rw [admits, admits, h.cells n m hnm]

theorem filed_cases (h : Agree R k cs ds) :
    (cs.table.get? k = none ∧ ds.table.get? k = none) ∨
      ∃ n m, cs.table.get? k = some n ∧ ds.table.get? k = some m ∧ R n m := by
  have hfiled := h.filed
  generalize cs.table.get? k = x at *
  generalize ds.table.get? k = y at *
  cases hfiled with
  | none => exact .inl ⟨rfl, rfl⟩
  | some hnm => exact .inr ⟨_, _, rfl, rfl, hnm⟩

/-- The cell of the key is the same in both. -/
theorem current?_eq (h : Agree R k cs ds) : cs.current? k = ds.current? k := by
  rw [current?, current?]
  rcases h.filed_cases with ⟨hcs, hds⟩ | ⟨n, m, hcs, hds, hnm⟩
  · rw [hcs, hds]
    rfl
  · rw [hcs, hds]
    exact h.cells n m hnm

/-! ## Tables -/

/-- Cells leave both tables, that of the key among them. -/
theorem unfile (h : Agree R k cs ds) {table table' : Assoc κ CellId}
    (hcs : table.get? k = none) (hds : table'.get? k = none) :
    Agree R k { cs with table := table } { ds with table := table' } :=
  ⟨hcs.symm ▸ hds.symm ▸ .none, h.cells, h.made, h.paired⟩

/-- Cells leave one table, but not that of the key. -/
theorem retable_left (h : Agree R k cs ds) {table : Assoc κ CellId}
    (htable : table.get? k = cs.table.get? k) : Agree R k { cs with table := table } ds :=
  ⟨htable ▸ h.filed, h.cells, h.made, h.paired⟩

theorem retire (h : Agree R k cs ds) (mayGo : Cell σ → Bool) :
    Agree R k (cs.retire k mayGo) (ds.retire k mayGo) := by
  rw [Cells.retire, Cells.retire, h.current?_eq]
  split
  · exact h.unfile (Assoc.get?_erase_self ..) (Assoc.get?_erase_self ..)
  · exact h

theorem retire_left (h : Agree R k cs ds) (hl : k ≠ l) (mayGo : Cell σ → Bool) :
    Agree R k (cs.retire l mayGo) ds := by
  rw [Cells.retire]
  split
  · exact h.retable_left (Assoc.get?_erase_of_ne _ hl)
  · exact h

/-! ## Cells -/

theorem modify (h : Agree R k cs ds) (hnm : R n m) (f : Cell σ → Cell σ) :
    Agree R k (cs.modify n f) (ds.modify m f) where
  filed := h.filed
  cells n' m' hnm' := by
    rw [cell?_modify, cell?_modify, h.cells n' m' hnm']
    simp only [h.paired n' m' n m hnm' hnm]
  made := h.made
  paired := h.paired

theorem modify_left (h : Agree R k cs ds) (hn : ∀ m, ¬ R n m) (f : Cell σ → Cell σ) :
    Agree R k (cs.modify n f) ds where
  filed := h.filed
  cells n' m' hnm' := by
    have hne : n' ≠ n := by
      rintro rfl
      exact hn m' hnm'
    rw [cell?_modify, if_neg hne, h.cells n' m' hnm']
  made := h.made
  paired := h.paired

theorem setValue (h : Agree R k cs ds) (hnm : R n m) (v : σ) :
    Agree R k (cs.setValue n v) (ds.setValue m v) :=
  h.modify hnm _

theorem setValue_left (h : Agree R k cs ds) (hn : ∀ m, ¬ R n m) (v : σ) :
    Agree R k (cs.setValue n v) ds :=
  h.modify_left hn _

theorem release (h : Agree R k cs ds) (hnm : R n m) (t : CallId) :
    Agree R k (cs.release n t) (ds.release m t) :=
  (h.modify hnm _).modify hnm _

theorem release_left (h : Agree R k cs ds) (hn : ∀ m, ¬ R n m) (t : CallId) :
    Agree R k (cs.release n t) ds :=
  (h.modify_left hn _).modify_left hn _

/-! ## New cells -/

/-- The key gets a cell in both tables, which is new or the one that it has. -/
theorem withCell (h : Agree R k cs ds) (v : σ) :
    ∃ R' : CellId → CellId → Prop, Agree R' k (cs.withCell k v).2 (ds.withCell k v).2 ∧
      R' (cs.withCell k v).1 (ds.withCell k v).1 ∧ (∀ n m, R n m → R' n m) ∧
      ∀ n m, R' n m → R n m ∨ n = cs.next := by
  unfold Cells.withCell
  rcases h.filed_cases with ⟨hcs, hds⟩ | ⟨n, m, hcs, hds, hnm⟩
  · rw [hcs, hds]
    -- The new cells are a new pair, and their numbers are in no other one.
    refine ⟨fun n m => R n m ∨ n = cs.next ∧ m = ds.next, ⟨?_, ?_, ?_, ?_⟩, .inr ⟨rfl, rfl⟩,
      fun _ _ => .inl, fun _ _ => Or.imp_right And.left⟩
    · rw [Assoc.get?_put_self, Assoc.get?_put_self]
      exact .some (.inr ⟨rfl, rfl⟩)
    · rintro n m (hnm | ⟨rfl, rfl⟩)
      · obtain ⟨hn, hm⟩ := h.made n m hnm
        exact (Assoc.get?_put_of_ne _ _ (Nat.ne_of_lt hn)).trans
          ((h.cells n m hnm).trans (Assoc.get?_put_of_ne _ _ (Nat.ne_of_lt hm)).symm)
      · exact (Assoc.get?_put_self ..).trans (Assoc.get?_put_self ..).symm
    · rintro n m (hnm | ⟨rfl, rfl⟩)
      · exact (h.made n m hnm).imp Nat.lt_succ_of_lt Nat.lt_succ_of_lt
      · exact ⟨Nat.lt_succ_self _, Nat.lt_succ_self _⟩
    · rintro n m n' m' (hnm | ⟨rfl, rfl⟩) (hnm' | ⟨rfl, rfl⟩)
      · exact h.paired n m n' m' hnm hnm'
      · exact iff_of_false (Nat.ne_of_lt (h.made n m hnm).1) (Nat.ne_of_lt (h.made n m hnm).2)
      · exact iff_of_false (Nat.ne_of_gt (h.made n' m' hnm').1)
          (Nat.ne_of_gt (h.made n' m' hnm').2)
      · exact iff_of_true rfl rfl
  · rw [hcs, hds]
    exact ⟨R, h, hnm, fun _ _ => id, fun _ _ => .inl⟩

/-- A call asks for the lock of the key in both tables. -/
theorem enter_openCell (h : Agree R k cs ds) (v : σ) (t : CallId) :
    ∃ R' : CellId → CellId → Prop,
      Agree R' k ((cs.openCell k v).2.enter (cs.openCell k v).1 t)
        ((ds.openCell k v).2.enter (ds.openCell k v).1 t) ∧
      R' (cs.openCell k v).1 (ds.openCell k v).1 ∧ (∀ n m, R n m → R' n m) ∧
      ∀ n m, R' n m → R n m ∨ n = cs.next := by
  obtain ⟨R', hagree, hnew, hold, honly⟩ := h.withCell v
  exact ⟨R', (hagree.modify hnew _).modify hnew _, hnew, hold, honly⟩

/-- Another key gets a cell, which is in no pair if the one that it has is in none. -/
theorem withCell_left (h : Agree R k cs ds) (hl : k ≠ l)
    (hfiled : ∀ n, cs.table.get? l = some n → ∀ m, ¬ R n m) (v : σ) :
    Agree R k (cs.withCell l v).2 ds ∧ ∀ m, ¬ R (cs.withCell l v).1 m := by
  unfold Cells.withCell
  split
  · next n hn => exact ⟨h, hfiled n hn⟩
  · have hnew : ∀ n m, R n m → n ≠ cs.next := fun n m hnm => Nat.ne_of_lt (h.made n m hnm).1
    refine ⟨⟨?_, fun n m hnm => ?_, fun n m hnm => ?_, h.paired⟩, fun m hnm => hnew _ m hnm rfl⟩
    · rw [Assoc.get?_put_of_ne _ _ hl]
      exact h.filed
    · exact (Assoc.get?_put_of_ne _ _ (hnew n m hnm)).trans (h.cells n m hnm)
    · exact (h.made n m hnm).imp_left Nat.lt_succ_of_lt

/-- A call asks for the lock of another key in one table. -/
theorem enter_openCell_left (h : Agree R k cs ds) (hl : k ≠ l)
    (hfiled : ∀ n, cs.table.get? l = some n → ∀ m, ¬ R n m) (v : σ) (t : CallId) :
    Agree R k ((cs.openCell l v).2.enter (cs.openCell l v).1 t) ds ∧
      ∀ m, ¬ R (cs.openCell l v).1 m := by
  obtain ⟨hagree, hnew⟩ := h.withCell_left hl hfiled v
  exact ⟨(hagree.modify_left hnew _).modify_left hnew _, hnew⟩

end Agree

end RemoteShell.Cells
