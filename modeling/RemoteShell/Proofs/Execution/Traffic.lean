import RemoteShell.Execution
import RemoteShell.Proofs.Elevation.Traffic
import RemoteShell.Proofs.Pool.Traffic

/-!
# Traffic on a hub

A hub with the calls that are under way on it: commands that are run on targets, and orders to take
connections out of the pool.  They come in any order and any number, for any hosts; between two of
its waits a call goes on without a break, and while it waits every other call may go on.  A wait may
end with any answer that fits it, at any instant.  A command may be cancelled while it waits for
anything, and every call may be given up by its caller.  At any moment the circuit of a host may be
reset by hand, and the profiles of a host may be forgotten.

What becomes of commands is noted, with the instant, and so are the resets.  A command that is given
up by its caller leaves no note: nobody hears of its result.

## Main definitions

* `Call`, `Event`, `Note`: a call that is under way, what happens, and what is noted
* `Traffic`, `Traffic.step`, `Traffic.run`: the hub with its calls, one event, and many
* `Traffic.Happens`: what an event can do

## Main results

* `Traffic.happens`: an event does nothing else
-/

namespace RemoteShell

namespace Execution

/-- The call on the pool that a call is busy with. -/
def poolCall? (x : Execution) : Option Pool.Call :=
  match x.phase with
  | .getting g => some (.search g)
  | .discarding r _ | .dropping r _ => some (.removal r)
  | .running _ | .backingOff | .elevating .. => none

/-- May the wait of a call end with an answer? -/
def mayHear (h : Hub) (x : Execution) (a : Answer) : Bool :=
  match x.phase, a with
  | .getting g, a => (Pool.Call.search g).mayHear h.pool a
  | .discarding r _, a | .dropping r _, a => (Pool.Call.removal r).mayHear h.pool a
  | .running _, .replied _ => true
  | .backingOff, .done => true
  | .elevating _ climb, a => climb.mayHear h.elevation a
  | _, _ => false

end Execution

namespace Hub

/-- A call that is under way. -/
inductive Call where
  | execution (x : Execution)
  | removal (r : Pool.Removal)

namespace Call

/-- The call on the pool that a call is busy with. -/
def poolCall? : Call → Option Pool.Call
  | .execution x => x.poolCall?
  | .removal r => some (.removal r)

/-- The closes that a call waits for. -/
def closing (c : Call) : List ConnId := c.poolCall?.elim [] Pool.Call.closing

/-- May the wait of a call end with an answer? -/
def mayHear (h : Hub) : Call → Answer → Bool
  | .execution x, a => x.mayHear h a
  | .removal r, a => (Pool.Call.removal r).mayHear h.pool a

/-- A call is given up where it stands. -/
def abandon (h : Hub) : Call → Hub
  | .execution x => x.abandon h
  | .removal _ => h

end Call

/-- What happens on a hub. -/
inductive Event where
  | execute (id : CallId) (t : Execution.Task) (cancelled : Bool)
  | order (id : CallId) (o : Pool.Order)
  | answer (id : CallId) (a : Answer)
  -- A command is cancelled: its caller hears so.
  | cancel (id : CallId)
  -- A call is dropped by its caller, who hears nothing.
  | abandon (id : CallId)
  | reset (host : String)
  | clear (host : Option String)

/-- What is noted. -/
inductive Note where
  -- A command on a host has ended; it was admitted if it was well-formed and passed the circuit.
  | ended (id : CallId) (host : String) (admitted : Bool) (r : Execution.Result) (now : Instant)
  | reset (host : String)

/-- Is a command well-formed, and does it pass the circuit of its host? -/
def admits (h : Hub) (t : Execution.Task) (cancelled : Bool) (now : Instant) : Bool :=
  (Execution.refusal t cancelled).isOk && (h.circuits.acquire t.target.host now).1.isOk

/-- A hub with the calls that are under way on it. -/
structure Traffic where
  hub : Hub
  calls : Assoc CallId Call
  -- The notes, the latest first.
  journal : List Note
  -- The connections whose close a call waited for when it was given up.
  orphans : List ConnId

namespace Traffic

/-- A hub on which nothing has happened. -/
def idle (s : Settings) (w : Pool.Walk := .inOrder) : Traffic := ⟨.empty s w, [], [], []⟩

/-- A command comes to its next wait, or ends and is noted. -/
def after (s : Traffic) (id : CallId) (host : String) (admitted : Bool) (now : Instant) :
    Hub × Progress Execution Execution.Result → Traffic
  | (h, .waits x) => { s with hub := h, calls := s.calls.put id (.execution x) }
  | (h, .ends r) =>
    { s with
      hub := h
      calls := s.calls.erase id
      journal := .ended id host admitted r now :: s.journal }

/-- A removal comes to its next wait, or ends. -/
def afterRemoval (s : Traffic) (id : CallId) : Hub × Progress Pool.Removal Nat → Traffic
  | (h, .waits r) => { s with hub := h, calls := s.calls.put id (.removal r) }
  | (h, .ends _) => { s with hub := h, calls := s.calls.erase id }

theorem get?_after_of_ne (s : Traffic) {id i : CallId} (hi : i ≠ id) (host : String)
    (admitted : Bool) (now : Instant) (x : Hub × Progress Execution Execution.Result) :
    (s.after id host admitted now x).calls.get? i = s.calls.get? i := by
  obtain ⟨h, y | r⟩ := x
  · exact Assoc.get?_put_of_ne _ _ hi
  · exact Assoc.get?_erase_of_ne _ hi

theorem get?_afterRemoval_of_ne (s : Traffic) {id i : CallId} (hi : i ≠ id)
    (x : Hub × Progress Pool.Removal Nat) :
    (s.afterRemoval id x).calls.get? i = s.calls.get? i := by
  obtain ⟨h, r | n⟩ := x
  · exact Assoc.get?_put_of_ne _ _ hi
  · exact Assoc.get?_erase_of_ne _ hi

theorem orphans_after (s : Traffic) (id : CallId) (host : String) (admitted : Bool)
    (now : Instant) (x : Hub × Progress Execution Execution.Result) :
    (s.after id host admitted now x).orphans = s.orphans := by
  obtain ⟨h, y | r⟩ := x <;> rfl

theorem orphans_afterRemoval (s : Traffic) (id : CallId) (x : Hub × Progress Pool.Removal Nat) :
    (s.afterRemoval id x).orphans = s.orphans := by
  obtain ⟨h, r | n⟩ := x <;> rfl

/-- A call goes on with the answer to its wait. -/
def resume (s : Traffic) (id : CallId) (a : Answer) (now : Instant) : Call → Traffic
  | .execution x => s.after id x.task.target.host true now (x.resume a now s.hub)
  | .removal r => s.afterRemoval id (s.hub.onPool (r.resume a))

/-- A call waits no more for the closes that it asked for. -/
def orphan (s : Traffic) (c : Call) : Traffic := { s with orphans := s.orphans ++ c.closing }

/-- A command is cancelled; nothing else can be. -/
def cancel (s : Traffic) (id : CallId) (now : Instant) : Call → Option Traffic
  | .execution x =>
    let (h, r) := x.cancel s.hub
    some ((s.orphan (.execution x)).after id x.task.target.host true now (h, .ends r))
  | .removal _ => none

/-- A call is given up. -/
def abandon (s : Traffic) (id : CallId) (c : Call) : Traffic :=
  { s.orphan c with hub := c.abandon s.hub, calls := s.calls.erase id }

/-- **One event.**  An event that cannot happen makes nothing. -/
def step (s : Traffic) (now : Instant) : Event → Option Traffic
  | .execute id t cancelled =>
    if s.calls.has id then none
    else
      some (s.after id t.target.host (s.hub.admits t cancelled now) now
        (Execution.start id t cancelled now s.hub))
  | .order id o =>
    if s.calls.has id then none else some (s.afterRemoval id (s.hub.onPool (o.start now)))
  | .answer id a =>
    (s.calls.get? id).bind fun c =>
      if c.mayHear s.hub a then some (s.resume id a now c) else none
  | .cancel id => (s.calls.get? id).bind (s.cancel id now)
  | .abandon id => (s.calls.get? id).map (s.abandon id)
  | .reset host =>
    some
      { s with
        hub := { s.hub with circuits := (s.hub.circuits.reset host).2 }
        journal := .reset host :: s.journal }
  | .clear host =>
    some { s with hub := { s.hub with elevation := (s.hub.elevation.clear host).2 } }

/-- **What an event can do.** -/
inductive Happens (s : Traffic) (now : Instant) : Event → Traffic → Prop
  | executes {id : CallId} {t : Execution.Task} {cancelled : Bool}
      (new : s.calls.get? id = none) :
      Happens s now (.execute id t cancelled)
        (s.after id t.target.host (s.hub.admits t cancelled now) now
          (Execution.start id t cancelled now s.hub))
  | orders {id : CallId} {o : Pool.Order} (new : s.calls.get? id = none) :
      Happens s now (.order id o) (s.afterRemoval id (s.hub.onPool (o.start now)))
  | resumes {id : CallId} {a : Answer} {x : Execution}
      (call : s.calls.get? id = some (.execution x)) (hears : x.mayHear s.hub a = true) :
      Happens s now (.answer id a)
        (s.after id x.task.target.host true now (x.resume a now s.hub))
  | removes {id : CallId} {a : Answer} {r : Pool.Removal}
      (call : s.calls.get? id = some (.removal r))
      (hears : (Pool.Call.removal r).mayHear s.hub.pool a = true) :
      Happens s now (.answer id a) (s.afterRemoval id (s.hub.onPool (r.resume a)))
  | cancels {id : CallId} {x : Execution} (call : s.calls.get? id = some (.execution x)) :
      Happens s now (.cancel id)
        ((s.orphan (.execution x)).after id x.task.target.host true now
          (x.abandon s.hub, .ends (.finished (.error .cancelled))))
  | abandons {id : CallId} {c : Call} (call : s.calls.get? id = some c) :
      Happens s now (.abandon id) (s.abandon id c)
  | resets (host : String) :
      Happens s now (.reset host)
        { s with
          hub := { s.hub with circuits := (s.hub.circuits.reset host).2 }
          journal := .reset host :: s.journal }
  | clears (host : Option String) :
      Happens s now (.clear host)
        { s with hub := { s.hub with elevation := (s.hub.elevation.clear host).2 } }

/-- **An event does nothing else.** -/
theorem happens {s t : Traffic} {now : Instant} {e : Event} (h : s.step now e = some t) :
    s.Happens now e t := by
  cases e with
  | execute id task cancelled =>
    rw [step, Option.ite_none_left_eq_some, Option.some.injEq] at h
    obtain ⟨hnew, rfl⟩ := h
    exact .executes (by simpa [Assoc.has] using hnew)
  | order id o =>
    rw [step, Option.ite_none_left_eq_some, Option.some.injEq] at h
    obtain ⟨hnew, rfl⟩ := h
    exact .orders (by simpa [Assoc.has] using hnew)
  | answer id a =>
    obtain ⟨c, hc, h⟩ := Option.bind_eq_some_iff.mp h
    rw [Option.ite_none_right_eq_some, Option.some.injEq] at h
    obtain ⟨hmay, rfl⟩ := h
    cases c with
    | execution x => exact .resumes hc hmay
    | removal r => exact .removes hc hmay
  | cancel id =>
    obtain ⟨c, hc, h⟩ := Option.bind_eq_some_iff.mp h
    cases c with
    | execution x =>
      obtain rfl := Option.some.inj h
      exact .cancels hc
    | removal r => cases h
  | abandon id =>
    obtain ⟨c, hc, rfl⟩ := Option.map_eq_some_iff.mp h
    exact .abandons hc
  | reset host =>
    obtain rfl := Option.some.inj h
    exact .resets host
  | clear host =>
    obtain rfl := Option.some.inj h
    exact .clears host

/-- A command goes on with the answer to its wait. -/
theorem after_of_answer {s t : Traffic} {now : Instant} {id : CallId} {a : Answer} {x : Execution}
    (hx : s.calls.get? id = some (.execution x)) (h : s.step now (.answer id a) = some t) :
    x.mayHear s.hub a = true ∧
      t = s.after id x.task.target.host true now (x.resume a now s.hub) := by
  cases happens h with
  | resumes call hears =>
    obtain rfl := Call.execution.inj (Option.some.inj (hx.symm.trans call))
    exact ⟨hears, rfl⟩
  | removes call hears => cases hx.symm.trans call

/-- Events with their instants, one after another. -/
def run (s : Traffic) : List (Instant × Event) → Option Traffic
  | [] => some s
  | (now, e) :: es => (s.step now e).bind fun t => t.run es

theorem run_append (s : Traffic) (es fs : List (Instant × Event)) :
    s.run (es ++ fs) = (s.run es).bind fun t => t.run fs := by
  induction es generalizing s with
  | nil => rfl
  | cons x es ih =>
    obtain ⟨now, e⟩ := x
    rw [List.cons_append, run, run, Option.bind_assoc]
    exact Option.bind_congr fun t _ => ih t

/-- A run of one event more is a run and a step. -/
theorem run_snoc_eq_some {s t : Traffic} {es : List (Instant × Event)} {now : Instant}
    {e : Event} :
    s.run (es ++ [(now, e)]) = some t ↔ ∃ u, s.run es = some u ∧ u.step now e = some t := by
  induction es generalizing s with
  | nil => simp [run]
  | cons x es ih =>
    obtain ⟨now', e'⟩ := x
    simp only [List.cons_append, run, Option.bind_eq_some_iff, ih]
    constructor
    · rintro ⟨v, hv, u, hu, ht⟩
      exact ⟨u, ⟨v, hv, hu⟩, ht⟩
    · rintro ⟨u, ⟨v, hv, hu⟩, ht⟩
      exact ⟨v, hv, u, hu, ht⟩

/-- A command of a user on a host, for the fixed runs that are looked at further on. -/
def listing (user : String) : Execution.Task :=
  ⟨⟨"a", 22, some user, none, none⟩, "ls", .ofSecs 10, false, ⟨3, .ofSecs 1, .ofSecs 10⟩⟩

end Traffic

end Hub

end RemoteShell
