import RemoteShell.Proofs.Cells.Exclusion

/-!
# Queues at shared cells

A lock is held by a user of its cell, and users of the cell wait for it, each of them once.
Opening, entering and leaving keep this, and it does not depend on the table, so that retiring a
cell does no harm.  When there are no users left, every lock is free.

## Main definitions

* `Cell.queue`: the calls that hold a lock or wait for it
* `Cells.Peopled`: only users of a cell stand in its queue

## Main results

* `Peopled.enter_openCell`, `Peopled.release`: what users do
* `Peopled.admits_of_nobody`: without users a lock is given to the first call that asks for it
-/

namespace RemoteShell

namespace Cell

variable {σ : Type} {x : Cell σ}

/-- The calls that hold a lock or wait for it. -/
def queue (x : Cell σ) : List CallId := x.holder.toList ++ x.waiting

theorem queue_enter_perm (x : Cell σ) (t : CallId) : (x.enter t).queue.Perm (t :: x.queue) := by
  unfold enter queue
  split
  · next h =>
    rw [h]
    exact .refl _
  · rw [← List.append_assoc]
    exact List.perm_append_singleton ..

/-- A call that leaves stands in the queue no more, and the others stay. -/
theorem mem_queue_leave (h : x.queue.Nodup) {s t : CallId} (hs : s ∈ (x.leave t).queue) :
    s ∈ x.queue ∧ s ≠ t := by
  obtain ⟨v, holder, waiting, handles⟩ := x
  by_cases ht : holder = some t
  · -- The call that waits longest comes to hold the lock.
    subst ht
    obtain ⟨hnot, -⟩ := List.nodup_cons.mp h
    have hs : s ∈ waiting := by
      cases waiting with
      | nil => simp [leave, queue] at hs
      | cons w ws => simpa [leave, queue] using hs
    exact ⟨List.mem_cons_of_mem _ hs, ne_of_mem_of_not_mem hs hnot⟩
  · simp only [leave, if_neg ht, queue, List.mem_append, Option.mem_toList, List.mem_filter,
      decide_eq_true_eq] at hs ⊢
    rcases hs with hs | ⟨hs, hne⟩
    · exact ⟨.inl hs, fun hst => ht (hst ▸ hs)⟩
    · exact ⟨.inr hs, hne⟩

theorem nodup_queue_leave (h : x.queue.Nodup) (t : CallId) : (x.leave t).queue.Nodup := by
  obtain ⟨v, holder, waiting, handles⟩ := x
  by_cases ht : holder = some t
  · subst ht
    obtain ⟨-, hnodup⟩ := List.nodup_cons.mp h
    cases waiting with
    | nil => simp [leave, queue]
    | cons w ws => simpa [leave, queue] using hnodup
  · simp only [leave, if_neg ht, queue]
    exact ((List.Sublist.refl _).append List.filter_sublist).nodup h

end Cell

namespace Cells

variable {κ σ : Type} [DecidableEq κ] {cs ds : Cells κ σ} {us vs : List (User κ)} {u : User κ}

/-- **Only users of a cell stand in its queue**, each of them once. -/
structure Peopled (cs : Cells κ σ) (us : List (User κ)) : Prop where
  once : ∀ c x, cs.cell? c = some x → x.queue.Nodup
  users : ∀ c x, cs.cell? c = some x → ∀ t ∈ x.queue, ∃ u ∈ us, u.cell = c ∧ u.caller = t

omit [DecidableEq κ] in
theorem peopled_congr (h : ds.cells = cs.cells) : Peopled ds us ↔ Peopled cs us := by
  have hcell : ∀ c, ds.cell? c = cs.cell? c := fun c => congrArg (Assoc.get? · c) h
  constructor
  · exact fun hp => ⟨fun c x hx => hp.once c x ((hcell c).trans hx),
      fun c x hx => hp.users c x ((hcell c).trans hx)⟩
  · exact fun hp => ⟨fun c x hx => hp.once c x ((hcell c).symm.trans hx),
      fun c x hx => hp.users c x ((hcell c).symm.trans hx)⟩

/-- The table has nothing to do with the queues. -/
theorem cells_retire (cs : Cells κ σ) (k : κ) (mayGo : Cell σ → Bool) :
    (cs.retire k mayGo).cells = cs.cells := by
  unfold retire
  split <;> rfl

omit [DecidableEq κ] in
theorem cells_release (h : ds.cells = cs.cells) (c : CellId) (t : CallId) :
    (ds.release c t).cells = (cs.release c t).cells := by
  simp only [release, leave, drop, modify, h]

namespace Peopled

omit [DecidableEq κ] in
protected theorem empty : Peopled (.empty : Cells κ σ) ([] : List (User κ)) :=
  ⟨nofun, nofun⟩

omit [DecidableEq κ] in
/-- It does not matter where the users are, nor whether they have passed the lock. -/
theorem mono (h : Peopled cs us)
    (hus : ∀ u ∈ us, ∃ v ∈ vs, v.cell = u.cell ∧ v.caller = u.caller) : Peopled cs vs where
  once := h.once
  users c x hx t ht := by
    obtain ⟨u, hu, rfl, rfl⟩ := h.users c x hx t ht
    exact hus u hu

/-- A key gets a cell, which is new or the one that it has. -/
theorem withCell (h : Peopled cs us) (k : κ) (v : σ) : Peopled (cs.withCell k v).2 us := by
  unfold Cells.withCell
  cases hk : cs.table.get? k with
  | some c => exact h
  | none =>
    -- Nobody stands in the queue of a new cell.
    have hcell (c : CellId) (x : Cell σ)
        (hx : (cs.cells.put cs.next (Cell.fresh v)).get? c = some x) :
        x = Cell.fresh v ∨ cs.cell? c = some x := by
      by_cases hc : c = cs.next
      · subst hc
        exact .inl (Option.some.inj ((Assoc.get?_put_self ..).symm.trans hx)).symm
      · exact .inr ((Assoc.get?_put_of_ne _ _ hc).symm.trans hx)
    refine ⟨fun c x hx => ?_, fun c x hx t ht => ?_⟩
    · rcases hcell c x hx with rfl | hx
      · exact List.nodup_nil
      · exact h.once c x hx
    · rcases hcell c x hx with rfl | hx
      · cases ht
      · exact h.users c x hx t ht

/-- A call opens the cell of a key and asks for its lock: it is a new user. -/
theorem enter_openCell (h : Peopled cs us) (k : κ) (v : σ) {t : CallId}
    (ht : ∀ u ∈ us, u.caller ≠ t) :
    Peopled ((cs.openCell k v).2.enter (cs.openCell k v).1 t)
      (us ++ [⟨k, t, (cs.openCell k v).1, false⟩]) := by
  replace h := h.withCell k v
  unfold Cells.openCell
  generalize cs.withCell k v = w at *
  obtain ⟨c, cs⟩ := w
  have hcell (d : CellId) (x : Cell σ)
      (hx : ((cs.modify c fun x => { x with handles := x.handles + 1 }).enter c t).cell? d =
        some x) :
      (cs.cell? d = some x ∨ d = c ∧ ∃ y, cs.cell? c = some y ∧ x.queue.Perm (t :: y.queue)) := by
    rw [Cells.enter, cell?_modify, cell?_modify] at hx
    by_cases hd : d = c
    · rw [if_pos hd, if_pos hd, Option.map_map] at hx
      obtain ⟨y, hy, rfl⟩ := Option.map_eq_some_iff.mp hx
      exact .inr ⟨hd, y, hd ▸ hy, Cell.queue_enter_perm ..⟩
    · rw [if_neg hd, if_neg hd] at hx
      exact .inl hx
  refine ⟨fun d x hx => ?_, fun d x hx s hs => ?_⟩
  · rcases hcell d x hx with hx | ⟨-, y, hy, hperm⟩
    · exact h.once d x hx
    · refine hperm.nodup_iff.mpr (List.nodup_cons.mpr ⟨fun hmem => ?_, h.once c y hy⟩)
      obtain ⟨u, hu, -, hcaller⟩ := h.users c y hy t hmem
      exact ht u hu hcaller
  · have hold (d : CellId) (y : Cell σ) (hy : cs.cell? d = some y) (hs : s ∈ y.queue) :
        ∃ u ∈ us ++ [⟨k, t, c, false⟩], u.cell = d ∧ u.caller = s := by
      obtain ⟨u, hu, hcell, hcaller⟩ := h.users d y hy s hs
      exact ⟨u, List.mem_append_left _ hu, hcell, hcaller⟩
    rcases hcell d x hx with hx | ⟨rfl, y, hy, hperm⟩
    · exact hold d x hx hs
    · rcases List.mem_cons.mp (hperm.mem_iff.mp hs) with rfl | hs
      · exact ⟨_, List.mem_append_right _ (List.mem_singleton_self _), rfl, rfl⟩
      · exact hold d y hy hs

omit [DecidableEq κ] in
/-- A user leaves the queue and gives back its handle. -/
theorem release (h : Peopled cs (us ++ [u])) (hu : ∀ v ∈ us, v.caller ≠ u.caller) :
    Peopled (cs.release u.cell u.caller) us := by
  have hcell (d : CellId) (x : Cell σ) (hx : (cs.release u.cell u.caller).cell? d = some x) :
      ∃ y, cs.cell? d = some y ∧ x.queue.Nodup ∧
        ∀ s ∈ x.queue, s ∈ y.queue ∧ (d = u.cell → s ≠ u.caller) := by
    rw [Cells.release, drop, leave, cell?_modify, cell?_modify] at hx
    by_cases hd : d = u.cell
    · rw [if_pos hd, if_pos hd, Option.map_map] at hx
      obtain ⟨y, hy, rfl⟩ := Option.map_eq_some_iff.mp hx
      have honce := h.once d y hy
      refine ⟨y, hy, Cell.nodup_queue_leave honce u.caller, fun s hs => ?_⟩
      obtain ⟨hs, hne⟩ := Cell.mem_queue_leave honce hs
      exact ⟨hs, fun _ => hne⟩
    · rw [if_neg hd, if_neg hd] at hx
      exact ⟨x, hx, h.once d x hx, fun s hs => ⟨hs, fun hd' => absurd hd' hd⟩⟩
  refine ⟨fun d x hx => ?_, fun d x hx s hs => ?_⟩
  · obtain ⟨-, -, honce, -⟩ := hcell d x hx
    exact honce
  · obtain ⟨y, hy, -, hqueue⟩ := hcell d x hx
    obtain ⟨hs, hne⟩ := hqueue s hs
    obtain ⟨v, hv, rfl, rfl⟩ := h.users d y hy s hs
    rcases List.mem_append.mp hv with hv | hv
    · exact ⟨v, hv, rfl, rfl⟩
    · obtain rfl := List.mem_singleton.mp hv
      exact absurd rfl (hne rfl)

/-- **Without users every lock is free**: it is given to the first call that asks for it. -/
theorem admits_of_nobody (h : Peopled cs []) (hg : Guarded cs []) (k : κ) (v : σ) (t : CallId) :
    ((cs.openCell k v).2.enter (cs.openCell k v).1 t).admits (cs.openCell k v).1 t = true := by
  obtain ⟨hg, hk⟩ := hg.withCell k v
  replace h := h.withCell k v
  unfold Cells.openCell
  generalize cs.withCell k v = w at *
  obtain ⟨c, cs⟩ := w
  obtain ⟨-, x, hx, -⟩ := hg.counted k c hk
  have hfree : x.holder = none := by
    refine Option.eq_none_iff_forall_ne_some.mpr fun s hs => ?_
    obtain ⟨u, hu, -⟩ := h.users c x hx s (by simp [Cell.queue, hs])
    cases hu
  refine admits_iff.mpr ⟨Cell.enter { x with handles := x.handles + 1 } t, ?_, ?_⟩
  · rw [Cells.enter, cell?_modify, cell?_modify, if_pos rfl, if_pos rfl, hx]
    rfl
  · simp [Cell.enter, hfree]

end Peopled

end Cells

end RemoteShell
