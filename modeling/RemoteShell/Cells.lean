import RemoteShell.Assoc

/-!
# Shared cells

A table of cells by key, each with a lock that admits one call at a time, in the order of asking.
A cell is made when its key is first asked for.  The table may drop it again, but calls that have
a handle on the cell keep it: they go on with the cell they have, and later calls for the same key
get a new one.

## Main definitions

* `Cell`: a value, the call that holds the lock, the calls that wait, and the number of handles.
* `Cells.openCell`, `Cells.drop`: take and give back a handle.
* `Cells.enter`, `Cells.leave`: take or ask for the lock, and give it back or stop waiting.
* `Cells.retire`: drop the cell of a key from the table when nobody has a handle on it.
-/

namespace RemoteShell

/-- The number of a call. -/
abbrev CallId := Nat

/-- The number of a cell. -/
abbrev CellId := Nat

/-- A value behind a lock. -/
structure Cell (σ : Type) where
  value : σ
  holder : Option CallId
  -- The calls that wait for the lock, in the order of asking.
  waiting : List CallId
  handles : Nat
  deriving DecidableEq, Repr

/-- A table of cells by key. -/
structure Cells (κ σ : Type) where
  table : Assoc κ CellId
  -- Every cell ever made.
  cells : Assoc CellId (Cell σ)
  next : CellId
  deriving DecidableEq, Repr

namespace Cell

variable {σ : Type}

/-- A cell that nobody has asked for. -/
def fresh (v : σ) : Cell σ := ⟨v, none, [], 0⟩

/-- Take the lock if it is free, else wait for it. -/
def enter (c : Cell σ) (t : CallId) : Cell σ :=
  match c.holder with
  | none => { c with holder := some t }
  | some _ => { c with waiting := c.waiting ++ [t] }

/-- Give the lock back, to the call that waits longest; a call that only waits stops waiting. -/
def leave (c : Cell σ) (t : CallId) : Cell σ :=
  if c.holder = some t then
    match c.waiting with
    | [] => { c with holder := none }
    | w :: ws => { c with holder := some w, waiting := ws }
  else { c with waiting := c.waiting.filter (· ≠ t) }

theorem holder_enter_of_some {c : Cell σ} {u : CallId} (h : c.holder = some u) (t : CallId) :
    (c.enter t).holder = some u := by
  simp [enter, h]

theorem holder_leave_of_ne {c : Cell σ} {t : CallId} (h : c.holder ≠ some t) :
    (c.leave t).holder = c.holder := by
  simp [leave, h]

@[simp] theorem handles_enter (c : Cell σ) (t : CallId) : (c.enter t).handles = c.handles := by
  unfold enter
  split <;> rfl

@[simp] theorem handles_leave (c : Cell σ) (t : CallId) : (c.leave t).handles = c.handles := by
  unfold leave
  split
  · split <;> rfl
  · rfl

@[simp] theorem value_enter (c : Cell σ) (t : CallId) : (c.enter t).value = c.value := by
  unfold enter
  split <;> rfl

@[simp] theorem value_leave (c : Cell σ) (t : CallId) : (c.leave t).value = c.value := by
  unfold leave
  split
  · split <;> rfl
  · rfl

end Cell

namespace Cells

variable {κ σ : Type} [DecidableEq κ]

/-- A table without cells. -/
def empty : Cells κ σ := ⟨[], [], 0⟩

/-- A cell. -/
def cell? (cs : Cells κ σ) (c : CellId) : Option (Cell σ) := cs.cells.get? c

/-- The cell of a key. -/
def current? (cs : Cells κ σ) (k : κ) : Option (Cell σ) := (cs.table.get? k).bind cs.cell?

/-- Change a cell. -/
def modify (cs : Cells κ σ) (c : CellId) (f : Cell σ → Cell σ) : Cells κ σ :=
  { cs with cells := cs.cells.update c f }

/-- The table with a cell for a key; a new cell holds the standard value. -/
def withCell (cs : Cells κ σ) (k : κ) (standard : σ) : CellId × Cells κ σ :=
  match cs.table.get? k with
  | some c => (c, cs)
  | none =>
    (cs.next,
      { table := cs.table.put k cs.next
        cells := cs.cells.put cs.next (.fresh standard)
        next := cs.next + 1 })

/-- Take a handle on the cell of a key. -/
def openCell (cs : Cells κ σ) (k : κ) (standard : σ) : CellId × Cells κ σ :=
  let (c, cs) := cs.withCell k standard
  (c, cs.modify c fun x => { x with handles := x.handles + 1 })

/-- Give a handle back. -/
def drop (cs : Cells κ σ) (c : CellId) : Cells κ σ :=
  cs.modify c fun x => { x with handles := x.handles - 1 }

/-- Take the lock of a cell if it is free, else wait for it. -/
def enter (cs : Cells κ σ) (c : CellId) (t : CallId) : Cells κ σ := cs.modify c (·.enter t)

/-- Give the lock of a cell back, or stop waiting for it. -/
def leave (cs : Cells κ σ) (c : CellId) (t : CallId) : Cells κ σ := cs.modify c (·.leave t)

/-- Does a call hold the lock of a cell? -/
def admits (cs : Cells κ σ) (c : CellId) (t : CallId) : Bool :=
  (cs.cell? c).any fun x => x.holder == some t

/-- Is the lock of a cell taken? -/
def busy (cs : Cells κ σ) (c : CellId) : Bool := (cs.cell? c).any fun x => x.holder.isSome

/-- Give back the lock and the handle of a call. -/
def release (cs : Cells κ σ) (c : CellId) (t : CallId) : Cells κ σ := (cs.leave c t).drop c

/-- The value of a cell. -/
def value? (cs : Cells κ σ) (c : CellId) : Option σ := (cs.cell? c).map (·.value)

/-- Change the value of a cell. -/
def setValue (cs : Cells κ σ) (c : CellId) (v : σ) : Cells κ σ :=
  cs.modify c fun x => { x with value := v }

/-- Drop the cell of a key from the table when nobody has a handle on it and it may go. -/
def retire (cs : Cells κ σ) (k : κ) (mayGo : Cell σ → Bool) : Cells κ σ :=
  if (cs.current? k).any fun x => x.handles == 0 && mayGo x then
    { cs with table := cs.table.erase k }
  else cs

/-! ## Looking after a change -/

omit [DecidableEq κ] in
@[simp] theorem table_modify (cs : Cells κ σ) (c : CellId) (f : Cell σ → Cell σ) :
    (cs.modify c f).table = cs.table := rfl

omit [DecidableEq κ] in
@[simp] theorem next_modify (cs : Cells κ σ) (c : CellId) (f : Cell σ → Cell σ) :
    (cs.modify c f).next = cs.next := rfl

omit [DecidableEq κ] in
theorem cell?_modify (cs : Cells κ σ) (c d : CellId) (f : Cell σ → Cell σ) :
    (cs.modify c f).cell? d = if d = c then (cs.cell? d).map f else cs.cell? d :=
  Assoc.get?_update _ _ _ _

omit [DecidableEq κ] in
theorem admits_iff {cs : Cells κ σ} {c : CellId} {t : CallId} :
    cs.admits c t = true ↔ ∃ x, cs.cell? c = some x ∧ x.holder = some t := by
  simp [admits, Option.any_eq_true]

omit [DecidableEq κ] in
/-- A change of a cell that keeps a call as its holder keeps the call admitted. -/
theorem admits_modify {cs : Cells κ σ} {c d : CellId} {f : Cell σ → Cell σ} {t : CallId}
    (hf : ∀ x : Cell σ, x.holder = some t → (f x).holder = some t) (h : cs.admits d t = true) :
    (cs.modify c f).admits d t = true := by
  obtain ⟨x, hx, ht⟩ := admits_iff.mp h
  rw [admits_iff, cell?_modify]
  by_cases hd : d = c
  · exact ⟨f x, by simp [hd ▸ hx, hd], hf x ht⟩
  · exact ⟨x, by simp [hd, hx], ht⟩

end Cells

end RemoteShell
