import RemoteShell.Proofs.Elevation.Contract

/-!
# Engines that fit their calls

What ties an engine to the calls that are under way on it and to the notes on its cells.  A cell
belongs to one login for good: when the profiles of a host are forgotten, cells leave the table, but
calls that are busy with one keep it, and a new call on the login gets a new cell.  A call that
talks holds the lock of its cell and goes on with the profile that it left there.

The moves of an engine are taken one by one: a cell changes, calls go and come, cells leave the
table, notes are made, a login gets a cell, a lock is given back.

## Main definitions

* `Climb.Fits`: what a call relies on while it waits
* `Consistent`: an engine fits calls and notes

## Main results

* `Consistent.modify`: a cell changes
* `Consistent.withCell`: a login gets a cell
* `Consistent.release`: a call gives its lock back
-/

namespace RemoteShell.Elevation

variable {inv : Login → Option Profile → List Note → Prop} {settings : ElevationSettings}
  {owner : CellId → Login} {busy : Option CellId} {e e' : Engine}
  {calls calls' : Assoc CallId Climb} {journal journal' : List (CellId × Note)} {c : Climb}
  {n : CellId}

/-! ## Notes on a cell -/

theorem notesOn_append (n : CellId) (j k : List (CellId × Note)) :
    notesOn n (j ++ k) = notesOn n j ++ notesOn n k := by
  rw [notesOn, List.filter_append, List.map_append]
  rfl

theorem notesOn_self (n : CellId) (l : List Note) : notesOn n (l.map fun y => (n, y)) = l := by
  induction l with
  | nil => rfl
  | cons y l ih =>
    rw [notesOn] at ih ⊢
    rw [List.map_cons, List.filter_cons_of_pos (by simp), List.map_cons, ih]

theorem notesOn_of_ne {n m : CellId} (h : n ≠ m) (l : List Note) :
    notesOn n (l.map fun y => (m, y)) = [] := by
  rw [notesOn, List.map_eq_nil_iff, List.filter_eq_nil_iff]
  intro p hp
  obtain ⟨y, -, rfl⟩ := List.mem_map.mp hp
  simpa using h.symm

theorem notesOn_eq_nil {journal : List (CellId × Note)} (h : ∀ p ∈ journal, p.1 ≠ n) :
    notesOn n journal = [] := by
  rw [notesOn, List.map_eq_nil_iff, List.filter_eq_nil_iff]
  intro p hp
  simpa using h p hp

/-- What a call is told comes before what it does then. -/
theorem notesOf_eq (c : Climb) (told : List Deed) (x : Engine × Progress Climb Climb.Result) :
    notesOf c told x = notesOf c [] x ++ told.map c.note := by
  unfold notesOf
  cases Climb.comesTo x.2 with
  | none => rfl
  | some d => rfl

/-! ## An engine that fits its calls -/

/-- **What a call relies on** while it waits for an answer: it holds the lock of its cell, and it
goes on with the profile that is there to fulfil its contract. -/
def Climb.Fits (inv : Login → Option Profile → List Note → Prop) (e : Engine)
    (journal : List (CellId × Note)) (c : Climb) : Prop :=
  match c.phase with
  | .queued => True
  | .talking (.done _) => False
  | .talking (.ask q next) =>
    q.Outward ∧ ∃ x, e.profiles.cell? c.cell = some x ∧ x.holder = some c.caller ∧
      ∀ a, Talk.Fulfils (inv c.key) c.note (next a) x.value
        (c.note (.hears q a) :: notesOn c.cell journal)

/-- **An engine fits calls and notes.**  The invariant holds of all profiles, but for one that a
call is busy with right now. -/
structure Consistent (inv : Login → Option Profile → List Note → Prop)
    (settings : ElevationSettings) (owner : CellId → Login) (busy : Option CellId) (e : Engine)
    (calls : Assoc CallId Climb) (journal : List (CellId × Note)) : Prop where
  settings : e.settings = settings
  made : ∀ n < e.profiles.next, ∃ x, e.profiles.cell? n = some x
  -- Every cell belongs to one login, for the table, the calls and the notes.
  filed : ∀ p ∈ e.profiles.table, p.2 < e.profiles.next ∧ owner p.2 = p.1
  housed : ∀ p ∈ calls, p.2.cell < e.profiles.next ∧ owner p.2.cell = p.2.key
  noted : ∀ p ∈ journal, p.1 < e.profiles.next
  -- A call knows its number.
  callers : ∀ p ∈ calls, p.2.caller = p.1
  fits : ∀ p ∈ calls, p.2.Fits inv e journal
  kept : ∀ n x, busy ≠ some n → e.profiles.cell? n = some x →
    inv (owner n) x.value (notesOn n journal)

/-- A call still fits when its cell keeps the value, and the call the lock. -/
theorem Climb.Fits.transfer (h : c.Fits inv e journal)
    (hcell : ∀ x, e.profiles.cell? c.cell = some x → x.holder = some c.caller →
      ∃ y, e'.profiles.cell? c.cell = some y ∧ y.holder = some c.caller ∧ y.value = x.value)
    (hnotes : notesOn c.cell journal' = notesOn c.cell journal) : c.Fits inv e' journal' := by
  unfold Climb.Fits at h ⊢
  cases hphase : c.phase with
  | queued => trivial
  | talking t =>
    rw [hphase] at h
    cases t with
    | done x => exact h
    | ask q next =>
      obtain ⟨hq, x, hx, hholder, hnext⟩ := h
      obtain ⟨y, hy, hyholder, hyvalue⟩ := hcell x hx hholder
      refine ⟨hq, y, hy, hyholder, ?_⟩
      rw [hnotes, hyvalue]
      exact hnext

theorem Climb.fits_of_queued (h : c.phase = .queued) : c.Fits inv e journal := by
  unfold Climb.Fits
  rw [h]
  trivial

namespace Consistent

/-- A cell changes, and keeps the value and the lock of whoever talks, unless a call is busy with
it and all others on it queue. -/
theorem modify (h : Consistent inv settings owner busy e calls journal) (n : CellId)
    (f : Cell (Option Profile) → Cell (Option Profile))
    (hvalue : busy = some n ∨ ∀ x, (f x).value = x.value)
    (hcalls : ∀ p ∈ calls, p.2.cell = n → p.2.phase = .queued ∨
      ∀ x, x.holder = some p.2.caller → (f x).holder = some p.2.caller ∧ (f x).value = x.value) :
    Consistent inv settings owner busy { e with profiles := e.profiles.modify n f } calls
      journal where
  settings := h.settings
  made m hm := by
    obtain ⟨x, hx⟩ := h.made m hm
    rw [Cells.cell?_modify, hx]
    split
    · exact ⟨f x, rfl⟩
    · exact ⟨x, rfl⟩
  filed := h.filed
  housed := h.housed
  noted := h.noted
  callers := h.callers
  fits p hp := by
    by_cases hn : p.2.cell = n
    · rcases hcalls p hp hn with hq | hf
      · exact Climb.fits_of_queued hq
      · refine (h.fits p hp).transfer (fun x hx hholder => ?_) rfl
        obtain ⟨hfholder, hfvalue⟩ := hf x hholder
        refine ⟨f x, ?_, hfholder, hfvalue⟩
        rw [Cells.cell?_modify, if_pos hn, hx]
        rfl
    · refine (h.fits p hp).transfer (fun x hx hholder => ⟨x, ?_, hholder, rfl⟩) rfl
      rw [Cells.cell?_modify, if_neg hn]
      exact hx
  kept m x hm hx := by
    rw [Cells.cell?_modify] at hx
    by_cases hn : m = n
    · rw [if_pos hn, Option.map_eq_some_iff] at hx
      obtain ⟨y, hy, rfl⟩ := hx
      rcases hvalue with hb | hvalue
      · exact absurd (hn ▸ hb) hm
      · rw [hvalue]
        exact h.kept m y hm hy
    · rw [if_neg hn] at hx
      exact h.kept m x hm hx

/-- Some calls are gone, and others have come. -/
theorem of_calls (h : Consistent inv settings owner busy e calls journal)
    (hcalls : ∀ p ∈ calls', p ∈ calls ∨ p.2.caller = p.1 ∧
      (p.2.cell < e.profiles.next ∧ owner p.2.cell = p.2.key) ∧ p.2.Fits inv e journal) :
    Consistent inv settings owner busy e calls' journal := by
  refine { h with housed := ?_, callers := ?_, fits := ?_ }
  · intro p hp
    rcases hcalls p hp with hp | ⟨-, hhoused, -⟩
    · exact h.housed p hp
    · exact hhoused
  · intro p hp
    rcases hcalls p hp with hp | ⟨hcaller, -⟩
    · exact h.callers p hp
    · exact hcaller
  · intro p hp
    rcases hcalls p hp with hp | ⟨-, -, hfits⟩
    · exact h.fits p hp
    · exact hfits

/-- A call is taken from among the calls. -/
theorem erase (h : Consistent inv settings owner busy e calls journal) (id : CallId) :
    Consistent inv settings owner busy e (calls.erase id) journal :=
  h.of_calls fun _ hp => .inl (List.mem_filter.mp hp).1

/-- Cells leave the table. -/
theorem of_table (h : Consistent inv settings owner busy e calls journal)
    {table : Assoc Login CellId} (htable : ∀ p ∈ table, p ∈ e.profiles.table) :
    Consistent inv settings owner busy
      { e with profiles := { e.profiles with table := table } } calls journal where
  settings := h.settings
  made := h.made
  filed p hp := h.filed p (htable p hp)
  housed := h.housed
  noted := h.noted
  callers := h.callers
  fits p hp := (h.fits p hp).transfer (fun x hx hholder => ⟨x, hx, hholder, rfl⟩) rfl
  kept := h.kept

/-- Notes are made on a cell that a call is busy with, while all others on it queue. -/
theorem of_notes (h : Consistent inv settings owner (some n) e calls journal)
    (hn : n < e.profiles.next) (hqueued : ∀ p ∈ calls, p.2.cell = n → p.2.phase = .queued)
    (l : List Note) :
    Consistent inv settings owner (some n) e calls ((l.map fun y => (n, y)) ++ journal) where
  settings := h.settings
  made := h.made
  filed := h.filed
  housed := h.housed
  noted p hp := by
    rcases List.mem_append.mp hp with hp | hp
    · obtain ⟨y, -, rfl⟩ := List.mem_map.mp hp
      exact hn
    · exact h.noted p hp
  callers := h.callers
  fits p hp := by
    by_cases hc : p.2.cell = n
    · exact Climb.fits_of_queued (hqueued p hp hc)
    · refine (h.fits p hp).transfer (fun x hx hholder => ⟨x, hx, hholder, rfl⟩) ?_
      rw [notesOn_append, notesOn_of_ne hc, List.nil_append]
  kept m x hm hx := by
    have hmn : m ≠ n := fun e => hm (congrArg some e.symm)
    rw [notesOn_append, notesOn_of_ne hmn, List.nil_append]
    exact h.kept m x hm hx

/-- A call becomes busy with a cell. -/
theorem take (h : Consistent inv settings owner none e calls journal) (n : CellId) :
    Consistent inv settings owner (some n) e calls journal :=
  { h with kept := fun m x _ hx => h.kept m x nofun hx }

/-- A call is no longer busy with a cell, and the invariant holds of its profile. -/
theorem settle (h : Consistent inv settings owner (some n) e calls journal)
    (hinv : ∀ x, e.profiles.cell? n = some x → inv (owner n) x.value (notesOn n journal)) :
    Consistent inv settings owner none e calls journal := by
  refine { h with kept := ?_ }
  intro m x _ hx
  by_cases hm : some n = some m
  · rw [Option.some.injEq] at hm
    subst hm
    exact hinv x hx
  · exact h.kept m x hm hx

/-- A login gets a cell, if it has none. -/
theorem withCell (h : Consistent inv settings owner none e calls journal)
    (hinit : ∀ k, inv k none []) (k : Login) :
    ∃ owner', Consistent inv settings owner' none
        { e with profiles := (e.profiles.withCell k none).2 } calls journal ∧
      (e.profiles.withCell k none).1 < (e.profiles.withCell k none).2.next ∧
      owner' (e.profiles.withCell k none).1 = k := by
  unfold Cells.withCell
  cases hk : e.profiles.table.get? k with
  | some n =>
    obtain ⟨hn, ho⟩ := h.filed (k, n) (Assoc.mem_of_get? hk)
    exact ⟨owner, h, hn, ho⟩
  | none =>
    -- The new cell is of no other login, and nothing has been noted on it.
    have hold {m : CellId} (hm : m < e.profiles.next) :
        (if m = e.profiles.next then k else owner m) = owner m := if_neg (Nat.ne_of_lt hm)
    have hcell {m : CellId} (hm : m ≠ e.profiles.next) :
        Assoc.get? (e.profiles.cells.put e.profiles.next (.fresh none)) m =
          e.profiles.cell? m := Assoc.get?_put_of_ne _ _ hm
    refine ⟨fun m => if m = e.profiles.next then k else owner m, ?_, Nat.lt_succ_self _, if_pos rfl⟩
    refine ⟨h.settings, ?_, ?_, ?_, ?_, h.callers, ?_, ?_⟩
    · intro m hm
      by_cases hnew : m = e.profiles.next
      · subst hnew
        exact ⟨_, Assoc.get?_put_self ..⟩
      · obtain ⟨x, hx⟩ := h.made m (Nat.lt_of_le_of_ne (Nat.le_of_lt_succ hm) hnew)
        exact ⟨x, (hcell hnew).trans hx⟩
    · intro p hp
      rcases List.mem_append.mp hp with hp | hp
      · obtain ⟨hlt, ho⟩ := h.filed p (List.mem_filter.mp hp).1
        exact ⟨Nat.lt_succ_of_lt hlt, (hold hlt).trans ho⟩
      · obtain rfl := List.mem_singleton.mp hp
        exact ⟨Nat.lt_succ_self _, if_pos rfl⟩
    · intro p hp
      obtain ⟨hlt, ho⟩ := h.housed p hp
      exact ⟨Nat.lt_succ_of_lt hlt, (hold hlt).trans ho⟩
    · intro p hp
      exact Nat.lt_succ_of_lt (h.noted p hp)
    · intro p hp
      refine (h.fits p hp).transfer (fun x hx hholder => ⟨x, ?_, hholder, rfl⟩) rfl
      exact (hcell (Nat.ne_of_lt (h.housed p hp).1)).trans hx
    · intro m x _ hx
      by_cases hnew : m = e.profiles.next
      · subst hnew
        have hfresh : x = .fresh none :=
          (Option.some.inj ((Assoc.get?_put_self ..).symm.trans hx)).symm
        rw [if_pos rfl, hfresh, notesOn_eq_nil fun p hp => Nat.ne_of_lt (h.noted p hp)]
        exact hinit k
      · rw [if_neg hnew]
        exact h.kept m x nofun ((hcell hnew).symm.trans hx)

/-- A call gives its lock back, or stops waiting for it. -/
theorem release (h : Consistent inv settings owner busy e calls journal)
    (htaken : ∀ p ∈ calls, p.1 ≠ c.caller) :
    Consistent inv settings owner busy (c.release e) calls journal := by
  have hleave : Consistent inv settings owner busy
      { e with profiles := e.profiles.leave c.cell c.caller } calls journal := by
    refine h.modify c.cell _ (.inr fun x => Cell.value_leave x c.caller) ?_
    intro p hp _
    refine .inr fun x hx => ⟨?_, Cell.value_leave x c.caller⟩
    have hne : x.holder ≠ some c.caller := by
      rw [hx, h.callers p hp, ne_eq, Option.some.injEq]
      exact htaken p hp
    exact (Cell.holder_leave_of_ne hne).trans hx
  exact hleave.modify c.cell _ (.inr fun _ => rfl) fun p hp _ => .inr fun x hx => ⟨hx, rfl⟩

end Consistent

/-- A call that gives its lock back leaves its profile as it is. -/
theorem Climb.cell?_release (c : Climb) (e : Engine) {x : Cell (Option Profile)}
    (h : e.profiles.cell? c.cell = some x) :
    ∃ y, (c.release e).profiles.cell? c.cell = some y ∧ y.value = x.value := by
  refine ⟨{ x.leave c.caller with handles := (x.leave c.caller).handles - 1 }, ?_, ?_⟩
  · rw [release, Cells.release, Cells.drop, Cells.cell?_modify, if_pos rfl, Cells.leave,
      Cells.cell?_modify, if_pos rfl, h]
    rfl
  · exact Cell.value_leave x c.caller

end RemoteShell.Elevation
