import RemoteShell.Pool.Get
import RemoteShell.Pool.Removal

/-!
# Traffic on a pool

A pool with the calls that are under way on it.  Calls for connections, orders to take connections
out and uses of connections come in any order and any number; between two of its waits a call goes
on without a break, and while it waits every other call may go on.  A wait may end with any answer
that fits it, at any instant, and the caller of a call may give it up while it waits.

The closes that calls ask of the network are noted, so that what becomes of a connection can be told
after the pool has let it go.

## Main definitions

* `Call`, `Ending`: a call that is under way, and how a call ends.
* `Order`: an order to take connections out of the pool.
* `Traffic`, `Traffic.step`, `Traffic.run`: the pool with its calls, one event, and many.
* `Sometime`: at some moment of a run, an event finds the traffic so.
-/

namespace RemoteShell.Pool

/-- A call that is under way on a pool. -/
inductive Call where
  | search (g : Get)
  | removal (r : Removal)
  deriving DecidableEq, Repr

/-- How a call ends. -/
inductive Ending where
  -- A search ends with a connection or a fault.
  | found (r : Get.Result)
  -- A removal ends with the number of connections that it took out.
  | removed (n : Nat)

/-- An order to take connections out of the pool. -/
inductive Order where
  | host (name : String)
  | all
  | expired
  -- One, if it still is the one in the pool.
  | one (c : ConnId)
  deriving DecidableEq, Repr

/-- An order is carried out up to its first wait. -/
def Order.start (o : Order) (now : Instant) (p : Pool) : Pool × Progress Removal Nat :=
  match o with
  | .host name => Removal.ofHost name p
  | .all => Removal.ofAll p
  | .expired => Removal.ofExpired now p
  | .one c => Removal.invalidate c p

/-- The closes that a search asks for when it comes to its wait. -/
def Get.closing (g : Get) : List ConnId :=
  match g.phase with
  | .replacing c | .clearing c | .trimming c _ => [c]
  | .queued | .probing _ | .connecting => []

namespace Call

/-- What a call waits for. -/
def wait (p : Pool) : Call → Wait
  | .search g => g.wait p
  | .removal r => r.wait

/-- Has the turn of a call come that waits for a lock? -/
def admitted (p : Pool) : Call → Bool
  | .search g => g.admitted p
  | .removal _ => false

/-- The closes that a call has asked for and that are not over. -/
def closing : Call → List ConnId
  | .search g => g.closing
  | .removal r => r.pending

/-- May the wait of a call end with an answer?  The turn of a call comes when it has got the lock, a
new connection is none of those that the pool knows, and what ends is one of the closes that were
asked for. -/
def mayHear (p : Pool) (c : Call) (a : Answer) : Bool :=
  match c.wait p, a with
  | .turn, .admitted => c.admitted p
  | .connect .., .connected (.error _) => true
  | .connect .., .connected (.ok n) => (p.entry? n).isNone
  | .probe .., .alive _ => true
  | .close cs, .closed n => cs.contains n
  | _, _ => false

end Call

/-- What happens on a pool. -/
inductive Event where
  | search (id : CallId) (t : Target)
  | order (id : CallId) (o : Order)
  | answer (id : CallId) (a : Answer)
  | abandon (id : CallId)
  | use (c : ConnId)

/-- The call that an event is about. -/
def Event.call? : Event → Option CallId
  | .search id _ | .order id _ | .answer id _ | .abandon id => some id
  | .use _ => none

end Pool

open Pool in
/-- A pool with the calls that are under way on it. -/
structure Traffic where
  pool : Pool
  calls : Assoc CallId Call
  -- The connections whose close was asked of the network, in order.
  closes : List ConnId

namespace Traffic

open Pool

/-- A pool on which nothing has happened. -/
def idle (s : PoolSettings) (w : Walk := .inOrder) : Traffic := ⟨.empty s w, [], []⟩

/-- A search comes to its next wait, where it may ask for a close, or ends. -/
def afterSearch (s : Traffic) (id : CallId) :
    Pool × Progress Get Get.Result → Traffic × Option Ending
  | (p, .waits g) => (⟨p, s.calls.put id (.search g), s.closes ++ g.closing⟩, none)
  | (p, .ends r) => (⟨p, s.calls.erase id, s.closes⟩, some (.found r))

theorem pool_afterSearch (s : Traffic) (id : CallId) (x : Pool × Progress Get Get.Result) :
    (s.afterSearch id x).1.pool = x.1 := by
  obtain ⟨p, g | r⟩ := x <;> rfl

theorem closes_subset_afterSearch (s : Traffic) (id : CallId)
    (x : Pool × Progress Get Get.Result) : s.closes ⊆ (s.afterSearch id x).1.closes := by
  obtain ⟨p, g | r⟩ := x
  · exact List.subset_append_left _ _
  · exact List.Subset.refl _

theorem get?_afterSearch_of_ne (s : Traffic) {id i : CallId} (h : i ≠ id)
    (x : Pool × Progress Get Get.Result) :
    (s.afterSearch id x).1.calls.get? i = s.calls.get? i := by
  obtain ⟨p, g | r⟩ := x
  · exact Assoc.get?_put_of_ne _ _ h
  · exact Assoc.get?_erase_of_ne _ h

/-- An order has taken out what it takes out and asks for the closes, or ends. -/
def afterOrder (s : Traffic) (id : CallId) :
    Pool × Progress Removal Nat → Traffic × Option Ending
  | (p, .waits r) => (⟨p, s.calls.put id (.removal r), s.closes ++ r.pending⟩, none)
  | (p, .ends n) => (⟨p, s.calls.erase id, s.closes⟩, some (.removed n))

/-- A removal hears of the end of a close, and goes on to wait for the others or ends. -/
def afterClose (s : Traffic) (id : CallId) :
    Pool × Progress Removal Nat → Traffic × Option Ending
  | (p, .waits r) => (⟨p, s.calls.put id (.removal r), s.closes⟩, none)
  | (p, .ends n) => (⟨p, s.calls.erase id, s.closes⟩, some (.removed n))

theorem afterClose_ne_found (s : Traffic) (id : CallId) (x : Pool × Progress Removal Nat)
    (r : Get.Result) : (s.afterClose id x).2 ≠ some (.found r) := by
  obtain ⟨p, q | n⟩ := x <;> simp [afterClose]

/-- A call goes on with the answer to its wait. -/
def resume (s : Traffic) (id : CallId) (a : Answer) (now : Instant) :
    Call → Traffic × Option Ending
  | .search g => s.afterSearch id (g.resume a now s.pool)
  | .removal r => s.afterClose id (r.resume a s.pool)

/-- A call is given up where it stands; closes that it asked for are none of its business any
more. -/
def abandon (s : Traffic) (id : CallId) : Call → Traffic
  | .search g => { s with pool := g.abandon s.pool, calls := s.calls.erase id }
  | .removal _ => { s with calls := s.calls.erase id }

/-- **One event**: what becomes of the traffic, and how a call ends if one does.  An event that
cannot happen makes nothing. -/
def step (s : Traffic) (now : Instant) : Event → Option (Traffic × Option Ending)
  | .search id t =>
    if s.calls.has id then none else some (s.afterSearch id (Get.start id t now s.pool))
  | .order id o =>
    if s.calls.has id then none else some (s.afterOrder id (o.start now s.pool))
  | .answer id a =>
    (s.calls.get? id).bind fun c =>
      if c.mayHear s.pool a then some (s.resume id a now c) else none
  | .abandon id => (s.calls.get? id).map fun c => (s.abandon id c, none)
  | .use c => some ({ s with pool := s.pool.touch c now }, none)

/-- Events with their instants, one after another. -/
def run (s : Traffic) : List (Instant × Event) → Option Traffic
  | [] => some s
  | (now, e) :: es => (s.step now e).bind fun r => r.1.run es

theorem run_append (s : Traffic) (es fs : List (Instant × Event)) :
    s.run (es ++ fs) = (s.run es).bind fun t => t.run fs := by
  induction es generalizing s with
  | nil => rfl
  | cons e es ih =>
    obtain ⟨now, e⟩ := e
    simp only [List.cons_append, run]
    cases s.step now e with
    | none => rfl
    | some r => exact ih r.1

/-- A run of one event more is a run and a step. -/
theorem run_snoc_eq_some {s t : Traffic} {es : List (Instant × Event)} {now : Instant}
    {e : Event} :
    s.run (es ++ [(now, e)]) = some t ↔
      ∃ u o, s.run es = some u ∧ u.step now e = some (t, o) := by
  rw [run_append, Option.bind_eq_some_iff]
  refine exists_congr fun u => ?_
  simp only [run, Option.bind_eq_some_iff, Option.some.injEq]
  constructor
  · rintro ⟨hu, ⟨t', o⟩, ht, rfl⟩
    exact ⟨o, hu, ht⟩
  · rintro ⟨o, hu, ht⟩
    exact ⟨hu, (t, o), ht, rfl⟩

/-- **At some moment of a run**, an event finds the traffic so. -/
def Sometime (s : Traffic) (es : List (Instant × Event)) (P : Traffic → Instant → Event → Prop) :
    Prop :=
  ∃ before now e after t, es = before ++ (now, e) :: after ∧ s.run before = some t ∧ P t now e

theorem not_sometime_nil (s : Traffic) (P : Traffic → Instant → Event → Prop) :
    ¬ s.Sometime [] P := by
  rintro ⟨before, now, e, after, t, hes, -⟩
  simp at hes

theorem sometime_snoc_iff {s : Traffic} {es : List (Instant × Event)} {now : Instant} {e : Event}
    {P : Traffic → Instant → Event → Prop} :
    s.Sometime (es ++ [(now, e)]) P ↔ s.Sometime es P ∨ ∃ t, s.run es = some t ∧ P t now e := by
  constructor
  · rintro ⟨before, now', e', after, t, hes, hrun, hP⟩
    rcases after.eq_nil_or_concat with rfl | ⟨after, x, rfl⟩
    · obtain ⟨rfl, hx⟩ := List.append_inj' hes rfl
      obtain ⟨rfl, rfl⟩ := Prod.mk.inj (List.cons.inj hx).1
      exact .inr ⟨t, hrun, hP⟩
    · rw [List.concat_eq_append, ← List.cons_append, ← List.append_assoc] at hes
      obtain ⟨rfl, -⟩ := List.append_inj' hes rfl
      exact .inl ⟨before, now', e', after, t, rfl, hrun, hP⟩
  · rintro (⟨before, now', e', after, t, rfl, hrun, hP⟩ | ⟨t, hrun, hP⟩)
    · exact ⟨before, now', e', after ++ [(now, e)], t, by simp, hrun, hP⟩
    · exact ⟨es, now, e, [], t, rfl, hrun, hP⟩

end Traffic

end RemoteShell
