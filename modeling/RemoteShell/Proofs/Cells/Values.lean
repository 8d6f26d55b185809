import RemoteShell.Cells

/-!
# Changing what cells hold

A function on values, applied to all that a table of cells holds.  Nothing that is done to a table
looks at the values, so changing them first or last comes to the same: locks, queues, handles and
the table itself do not depend on what the cells hold.

## Main definitions

* `Assoc.mapValues`, `Cell.map`, `Cells.map`: all values changed

## Main results

* `Cells.withCell_map`, `Cells.modify_map`: a key gets a cell, and a cell changes
* `Cells.openCell_map`, `Cells.enter_map`, `Cells.release_map`, `Cells.retire_map`: what calls do to
  the table
-/

namespace RemoteShell

namespace Assoc

variable {κ α β : Type} (f : α → β) (m : Assoc κ α)

/-- A map with all values changed. -/
def mapValues : Assoc κ β := m.map fun p => (p.1, f p.2)

@[simp] theorem length_mapValues : (mapValues f m).length = m.length := List.length_map _

variable [DecidableEq κ] (k : κ)

@[simp] theorem get?_mapValues : (mapValues f m).get? k = (m.get? k).map f := by
  induction m with
  | nil => rfl
  | cons p m ih =>
    rw [mapValues, List.map_cons, get?_cons, get?_cons, ← mapValues, ih]
    split <;> rfl

@[simp] theorem erase_mapValues : (mapValues f m).erase k = mapValues f (m.erase k) := by
  rw [erase, mapValues, List.filter_map]
  rfl

@[simp] theorem put_mapValues (a : α) : (mapValues f m).put k (f a) = mapValues f (m.put k a) := by
  rw [put, erase_mapValues, put, mapValues, mapValues, List.map_append]
  rfl

theorem update_mapValues {g : α → α} {g' : β → β} (hg : ∀ a, g' (f a) = f (g a)) :
    (mapValues f m).update k g' = mapValues f (m.update k g) := by
  simp only [update, mapValues, List.map_map]
  refine List.map_congr_left fun p _ => ?_
  simp only [Function.comp_apply]
  split
  · rw [hg]
  · rfl

end Assoc

namespace Cell

variable {σ τ : Type} (f : σ → τ) (x : Cell σ) (t : CallId)

/-- A cell with its value changed. -/
def map : Cell τ := ⟨f x.value, x.holder, x.waiting, x.handles⟩

theorem enter_map : (x.map f).enter t = (x.enter t).map f := by
  obtain ⟨v, holder, waiting, handles⟩ := x
  cases holder <;> rfl

theorem leave_map : (x.map f).leave t = (x.leave t).map f := by
  obtain ⟨v, holder, waiting, handles⟩ := x
  by_cases ht : holder = some t
  · cases waiting <;> simp [leave, map, ht]
  · simp [leave, map, ht]

end Cell

namespace Cells

variable {κ σ τ : Type} [DecidableEq κ] (f : σ → τ) (cs : Cells κ σ) (k : κ) (n : CellId)
  (t : CallId)

/-- A table with what its cells hold changed. -/
def map : Cells κ τ := ⟨cs.table, Assoc.mapValues (Cell.map f) cs.cells, cs.next⟩

omit [DecidableEq κ] in
@[simp] theorem cell?_map : (cs.map f).cell? n = (cs.cell? n).map (Cell.map f) :=
  Assoc.get?_mapValues _ _ _

@[simp] theorem current?_map : (cs.map f).current? k = (cs.current? k).map (Cell.map f) := by
  rw [current?, current?, Option.map_bind]
  exact congrArg (Option.bind _) (funext fun n => cs.cell?_map f n)

omit [DecidableEq κ] in
@[simp] theorem value?_map : (cs.map f).value? n = (cs.value? n).map f := by
  simp only [value?, cell?_map, Option.map_map]
  rfl

omit [DecidableEq κ] in
@[simp] theorem admits_map : (cs.map f).admits n t = cs.admits n t := by
  simp only [admits, cell?_map, Option.any_map]
  rfl

omit [DecidableEq κ] in
theorem modify_map {g : Cell σ → Cell σ} {g' : Cell τ → Cell τ}
    (hg : ∀ x, g' (Cell.map f x) = Cell.map f (g x)) :
    (cs.map f).modify n g' = (cs.modify n g).map f :=
  congrArg (Cells.mk cs.table · cs.next) (Assoc.update_mapValues (Cell.map f) cs.cells n hg)

theorem withCell_map (v : σ) :
    (cs.map f).withCell k (f v) = ((cs.withCell k v).1, (cs.withCell k v).2.map f) := by
  simp only [withCell, map]
  cases cs.table.get? k with
  | some c => rfl
  | none =>
    have hfresh : Cell.fresh (f v) = (Cell.fresh v).map f := rfl
    rw [hfresh, Assoc.put_mapValues]

theorem openCell_map (v : σ) :
    (cs.map f).openCell k (f v) = ((cs.openCell k v).1, (cs.openCell k v).2.map f) := by
  simp only [openCell, withCell_map]
  rw [modify_map]
  intro x
  rfl

omit [DecidableEq κ] in
theorem enter_map : (cs.map f).enter n t = (cs.enter n t).map f :=
  modify_map f cs n fun x => x.enter_map f t

omit [DecidableEq κ] in
theorem release_map : (cs.map f).release n t = (cs.release n t).map f := by
  rw [release, leave, modify_map f cs n fun x => x.leave_map f t, drop, modify_map]
  · rfl
  · exact fun x => rfl

omit [DecidableEq κ] in
theorem setValue_map (v : σ) : (cs.map f).setValue n (f v) = (cs.setValue n v).map f :=
  modify_map f cs n fun _ => rfl

theorem retire_map {mayGo : Cell σ → Bool} {mayGo' : Cell τ → Bool}
    (hgo : ∀ x, mayGo' (Cell.map f x) = mayGo x) :
    (cs.map f).retire k mayGo' = (cs.retire k mayGo).map f := by
  have hany : ((cs.map f).current? k).any (fun x => x.handles == 0 && mayGo' x) =
      (cs.current? k).any fun x => x.handles == 0 && mayGo x := by
    rw [current?_map, Option.any_map]
    exact congrArg (Option.any · _) (funext fun x => congrArg _ (hgo x))
  rw [retire, retire, hany]
  split <;> rfl

end Cells

end RemoteShell
