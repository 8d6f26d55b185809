import Mathlib.Data.List.Nodup
import RemoteShell.Cells

/-!
# Exclusion behind shared cells

A table of cells may drop a cell and make a new one for the same key.  Two calls on one key exclude
each other all the same, as long as a cell is dropped only when nobody has a handle on it: then all
calls on a key that are under way have the same cell, and it is still in the table.

The calls that use cells are a list of users.  Their numbers of handles are counted, so that a
table can tell from a cell whether it has users, and those that have passed the lock are its
holders.  Opening, entering, leaving and retiring keep this, in whatever order they happen.

## Main definitions

* `Cells.User`: a call that has a handle on a cell.
* `Cells.Guarded`: the table, the handles and the holders agree with the users.

## Main results

* `Guarded.eq_of_inside`: two users of one key that have both passed the lock are the same.
* `Guarded.enter_openCell`, `Guarded.pass`, `Guarded.release`, `Guarded.retire`.
-/

namespace RemoteShell.Cells

variable {κ σ : Type}

/-- A call that has a handle on a cell. -/
structure User (κ : Type) where
  key : κ
  caller : CallId
  cell : CellId
  inside : Bool
  deriving DecidableEq, Repr

variable [DecidableEq κ]

/-- **The cells agree with their users.** -/
structure Guarded (cs : Cells κ σ) (us : List (User κ)) : Prop where
  -- The cells in the table were made before, and have as many handles as users.
  counted : ∀ k c, cs.table.get? k = some c → c < cs.next ∧
    ∃ x, cs.cell? c = some x ∧ x.handles = us.countP (·.cell = c)
  -- The table has the cell of every user.
  filed : ∀ u ∈ us, cs.table.get? u.key = some u.cell
  -- Whoever has passed the lock holds it.
  held : ∀ u ∈ us, u.inside → cs.admits u.cell u.caller
  -- No call is two users.
  callers : (us.map (·.caller)).Nodup

namespace Guarded

variable {cs : Cells κ σ} {us vs : List (User κ)} {u v : User κ}

/-- A table without cells has no users. -/
protected theorem empty : Guarded (.empty : Cells κ σ) ([] : List (User κ)) where
  counted := by simp [Cells.empty]
  filed := by simp
  held := by simp
  callers := List.nodup_nil

theorem perm (h : Guarded cs us) (hp : us.Perm vs) : Guarded cs vs where
  counted k c hk := by
    obtain ⟨hc, x, hx, hn⟩ := h.counted k c hk
    exact ⟨hc, x, hx, hn.trans (hp.countP_eq _)⟩
  filed u hu := h.filed u (hp.mem_iff.mpr hu)
  held u hu := h.held u (hp.mem_iff.mpr hu)
  callers := (hp.map _).nodup_iff.mp h.callers

theorem eq_of_caller (h : Guarded cs us) (hu : u ∈ us) (hv : v ∈ us)
    (e : u.caller = v.caller) : u = v :=
  List.inj_on_of_nodup_map h.callers hu hv e

/-- **Two users of one key that have both passed the lock are the same**: they have the same cell,
and it has one holder. -/
theorem eq_of_inside (h : Guarded cs us) (hu : u ∈ us) (hv : v ∈ us) (hk : u.key = v.key)
    (iu : u.inside) (iv : v.inside) : u = v := by
  have hcell : u.cell = v.cell := by
    have := h.filed u hu
    rw [hk, h.filed v hv] at this
    exact (Option.some.inj this).symm
  obtain ⟨x, hx, hxu⟩ := admits_iff.mp (h.held u hu iu)
  obtain ⟨y, hy, hyv⟩ := admits_iff.mp (h.held v hv iv)
  rw [hcell, hy, Option.some.injEq] at hx
  subst hx
  exact h.eq_of_caller hu hv (Option.some.inj (hxu.symm.trans hyv))

/-! ### What calls do -/

theorem countP_eq_zero_of_le (h : Guarded cs us) {c : CellId} (hc : cs.next ≤ c) :
    us.countP (·.cell = c) = 0 := by
  rw [List.countP_eq_zero]
  intro u hu
  have hlt := (h.counted _ _ (h.filed u hu)).1
  simpa using Nat.ne_of_lt (Nat.lt_of_lt_of_le hlt hc)

theorem withCell (h : Guarded cs us) (k : κ) (v : σ) :
    Guarded (cs.withCell k v).2 us ∧
      (cs.withCell k v).2.table.get? k = some (cs.withCell k v).1 := by
  unfold Cells.withCell
  cases hk : cs.table.get? k with
  | some c => exact ⟨h, hk⟩
  | none =>
    refine ⟨⟨?_, ?_, ?_, h.callers⟩, Assoc.get?_put_self ..⟩
    · intro l c hl
      by_cases e : l = k
      · subst e
        rw [Assoc.get?_put_self, Option.some.injEq] at hl
        subst hl
        refine ⟨Nat.lt_succ_self _, .fresh v, Assoc.get?_put_self .., ?_⟩
        rw [h.countP_eq_zero_of_le (Nat.le_refl _)]
        rfl
      · rw [Assoc.get?_put_of_ne _ _ e] at hl
        obtain ⟨hc, x, hx, hn⟩ := h.counted l c hl
        refine ⟨Nat.lt_succ_of_lt hc, x, ?_, hn⟩
        exact (Assoc.get?_put_of_ne _ _ (Nat.ne_of_lt hc)).trans hx
    · intro u hu
      have := h.filed u hu
      rw [Assoc.get?_put_of_ne _ _ (fun e => by rw [e, hk] at this; cases this)]
      exact this
    · intro u hu iu
      obtain ⟨x, hx, ht⟩ := admits_iff.mp (h.held u hu iu)
      have := (h.counted _ _ (h.filed u hu)).1
      exact admits_iff.mpr
        ⟨x, (Assoc.get?_put_of_ne _ _ (Nat.ne_of_lt this)).trans hx, ht⟩

/-- One cell changes, and with it the users of this cell. -/
theorem of_modify (h : Guarded cs us) {c : CellId} {f : Cell σ → Cell σ}
    (handles : ∀ x : Cell σ, x.handles = us.countP (·.cell = c) →
      (f x).handles = vs.countP (·.cell = c))
    (others : ∀ d, d ≠ c → vs.countP (·.cell = d) = us.countP (·.cell = d))
    (filed : ∀ v ∈ vs, cs.table.get? v.key = some v.cell)
    (held : ∀ v ∈ vs, v.inside → (cs.modify c f).admits v.cell v.caller)
    (callers : (vs.map (·.caller)).Nodup) : Guarded (cs.modify c f) vs where
  counted k d hk := by
    obtain ⟨hd, x, hx, hn⟩ := h.counted k d hk
    rw [next_modify, cell?_modify]
    by_cases e : d = c
    · subst e
      exact ⟨hd, f x, by simp [hx], handles x hn⟩
    · exact ⟨hd, x, by simp [e, hx], hn.trans (others d e).symm⟩
  filed := filed
  held := held
  callers := callers

/-- A call opens the cell of a key and asks for its lock: it is a new user. -/
theorem enter_openCell (h : Guarded cs us) (k : κ) (v : σ) {t : CallId}
    (ht : ∀ u ∈ us, u.caller ≠ t) :
    Guarded ((cs.openCell k v).2.enter (cs.openCell k v).1 t)
      (us ++ [⟨k, t, (cs.openCell k v).1, false⟩]) := by
  obtain ⟨h, hk⟩ := h.withCell k v
  unfold Cells.openCell
  generalize cs.withCell k v = w at *
  obtain ⟨c, cs⟩ := w
  have hopen : Guarded (cs.modify c fun x => { x with handles := x.handles + 1 })
      (us ++ [⟨k, t, c, false⟩]) := by
    refine h.of_modify ?_ ?_ ?_ ?_ ?_
    · intro x hx
      simp [List.countP_append, hx]
    · intro d hd
      simp [List.countP_append, hd.symm]
    · intro u hu
      rcases List.mem_append.mp hu with hu | hu
      · exact h.filed u hu
      · rw [List.mem_singleton.mp hu]
        exact hk
    · intro u hu iu
      rcases List.mem_append.mp hu with hu | hu
      · exact admits_modify (fun _ hx => hx) (h.held u hu iu)
      · simp [List.mem_singleton.mp hu] at iu
    · rw [List.map_append, List.nodup_append]
      refine ⟨h.callers, by simp, ?_⟩
      simpa using ht
  -- Who holds the lock keeps it when another asks for it.
  refine hopen.of_modify (fun x hx => by simpa using hx) (fun _ _ => rfl) hopen.filed ?_
    hopen.callers
  intro u hu iu
  exact admits_modify (fun x hx => Cell.holder_enter_of_some hx t) (hopen.held u hu iu)

/-- The turn of a user has come. -/
theorem pass (h : Guarded cs (us ++ [u])) (ha : cs.admits u.cell u.caller) :
    Guarded cs (us ++ [{ u with inside := true }]) where
  counted k c hk := by
    obtain ⟨hc, x, hx, hn⟩ := h.counted k c hk
    exact ⟨hc, x, hx, by simpa [List.countP_append] using hn⟩
  filed v hv := by
    rcases List.mem_append.mp hv with hv | hv
    · exact h.filed v (List.mem_append_left _ hv)
    · rw [List.mem_singleton.mp hv]
      exact h.filed u (by simp)
  held v hv iv := by
    rcases List.mem_append.mp hv with hv | hv
    · exact h.held v (List.mem_append_left _ hv) iv
    · rw [List.mem_singleton.mp hv]
      exact ha
  callers := by simpa using h.callers

/-- A user gives back its lock, or stops waiting for it, and gives back its handle. -/
theorem release (h : Guarded cs (us ++ [u])) : Guarded (cs.release u.cell u.caller) us := by
  have hc := h.callers
  rw [List.map_append, List.nodup_append] at hc
  have hleave : Guarded (cs.leave u.cell u.caller) (us ++ [{ u with inside := false }]) := by
    refine h.of_modify ?_ ?_ ?_ ?_ ?_
    · intro x hx
      simpa [List.countP_append] using hx
    · intro d _
      simp [List.countP_append]
    · intro v hv
      rcases List.mem_append.mp hv with hv | hv
      · exact h.filed v (List.mem_append_left _ hv)
      · rw [List.mem_singleton.mp hv]
        exact h.filed u (by simp)
    · intro v hv iv
      rcases List.mem_append.mp hv with hv | hv
      · -- Another call is the holder, and stays it.
        have hne : v.caller ≠ u.caller :=
          hc.2.2 _ (List.mem_map_of_mem hv) _ (by simp)
        refine admits_modify (fun x hx => ?_) (h.held v (List.mem_append_left _ hv) iv)
        rw [Cell.holder_leave_of_ne (by simpa [hx] using hne), hx]
      · simp [List.mem_singleton.mp hv] at iv
    · simpa using h.callers
  refine hleave.of_modify ?_ ?_ ?_ ?_ hc.1
  · intro x hx
    simp [List.countP_append] at hx ⊢
    omega
  · intro d hd
    simp [List.countP_append, hd.symm]
  · exact fun v hv => hleave.filed v (List.mem_append_left _ hv)
  · intro v hv iv
    exact admits_modify (fun _ hx => hx) (hleave.held v (List.mem_append_left _ hv) iv)

/-- **A cell is retired only when nobody uses it**, so that the users keep their cells. -/
theorem retire (h : Guarded cs us) (k : κ) (mayGo : Cell σ → Bool) :
    Guarded (cs.retire k mayGo) us := by
  unfold Cells.retire
  split
  · next hk =>
    obtain ⟨x, hx, hx'⟩ := (Option.any_eq_true _ _).mp hk
    obtain ⟨c, hc, hcx⟩ := Option.bind_eq_some_iff.mp hx
    have hzero : us.countP (·.cell = c) = 0 := by
      obtain ⟨-, y, hy, hn⟩ := h.counted k c hc
      rw [hcx, Option.some.injEq] at hy
      subst hy
      simp_all
    have hne (u : User κ) (hu : u ∈ us) : u.key ≠ k := by
      intro e
      have := h.filed u hu
      rw [e, hc, Option.some.injEq] at this
      exact List.countP_eq_zero.mp hzero u hu (by simp [this])
    refine ⟨?_, ?_, h.held, h.callers⟩
    · intro l d hl
      by_cases e : l = k
      · subst e
        simp at hl
      · rw [Assoc.get?_erase_of_ne _ e] at hl
        exact h.counted l d hl
    · intro u hu
      exact (Assoc.get?_erase_of_ne _ (hne u hu)).trans (h.filed u hu)
  · exact h

end Guarded
end RemoteShell.Cells
