import RemoteShell.Proofs.Execution.Traffic
import RemoteShell.Proofs.Pool.Custody

/-!
# What a turn of a command can do

Between two of its waits a command goes on without a break.  This module says once what it can do
there.  The circuits of the hosts stay as they are, unless the command ends, and then it reports its
result.  The pool sees what it would see of searches, removals and uses that come one after another
under the number of the command.

## Main definitions

* `Traffic.Leads`: a call leads the traffic on a pool from one moment to another
* `Hub.Moves`: the circuits stay, and a call leads the traffic on the pool
* `Execution.Turn`: a command comes to its next wait, or ends and reports

## Main results

* `Execution.resume_turn`, `Execution.start_cases`: the turns of a command
-/

namespace RemoteShell

/-! ## One call on a pool -/

namespace Pool

/-- The answer that an event brings. -/
def Event.answer? : Event → Option Answer
  | .answer _ a => some a
  | _ => none

/-- What a search has come to. -/
def searchOf : Progress Get Get.Result → Option Call
  | .waits g => some (.search g)
  | .ends _ => none

/-- What a removal has come to. -/
def removalOf : Progress Removal Nat → Option Call
  | .waits r => some (.removal r)
  | .ends _ => none

end Pool

namespace Traffic

open Pool

variable {s t u : Traffic} {now : Instant} {e : Event} {id : CallId} {as bs : List Answer}

/-- The answers that were brought. -/
def answers (es : List (Instant × Event)) : List Answer := es.filterMap fun x => x.2.answer?

theorem delivered_eq_answers (es : List (Instant × Event)) :
    delivered es = (answers es).filterMap Answer.delivered? := by
  rw [answers, List.filterMap_filterMap]
  refine List.filterMap_congr fun x _ => ?_
  cases x.2 <;> rfl

theorem closed_eq_answers (es : List (Instant × Event)) :
    closed es = (answers es).filterMap Answer.closed? := by
  rw [answers, List.filterMap_filterMap]
  refine List.filterMap_congr fun x _ => ?_
  cases x.2 <;> rfl

/-- **A call leads the traffic on**: events come that leave the other calls alone, the call hears
some answers, and nobody is given up. -/
structure Leads (id : CallId) (heard : List Answer) (s t : Traffic) : Prop where
  run : ∃ es, s.run es = some t ∧ answers es = heard ∧ ∀ x ∈ es, ∀ i, x.2 ≠ .abandon i
  others : ∀ i, i ≠ id → t.calls.get? i = s.calls.get? i

namespace Leads

protected theorem refl (id : CallId) (s : Traffic) : Leads id [] s s where
  run := ⟨[], rfl, rfl, nofun⟩
  others _ _ := rfl

theorem trans (h : Leads id as s t) (h' : Leads id bs t u) : Leads id (as ++ bs) s u where
  run := by
    obtain ⟨es, hes, rfl, hnone⟩ := h.run
    obtain ⟨fs, hfs, rfl, hnone'⟩ := h'.run
    refine ⟨es ++ fs, by simp [run_append, hes, hfs], List.filterMap_append, ?_⟩
    intro x hx
    exact (List.mem_append.mp hx).elim (hnone x) (hnone' x)
  others i hi := (h'.others i hi).trans (h.others i hi)

theorem event {r : Traffic × Option Ending} (h : s.step now e = some r)
    (he : ∀ i, e ≠ .abandon i) (others : ∀ i, i ≠ id → r.1.calls.get? i = s.calls.get? i) :
    Leads id e.answer?.toList s r.1 where
  run := ⟨[(now, e)], by simp [Traffic.run, h], filterMap_singleton .., by simpa using he⟩
  others := others

end Leads

/-! ### What the call itself comes to -/

theorem get?_afterSearch_self (s : Traffic) (id : CallId) (x : Pool × Progress Get Get.Result) :
    (s.afterSearch id x).1.calls.get? id = searchOf x.2 := by
  obtain ⟨p, g | r⟩ := x
  · exact Assoc.get?_put_self ..
  · exact Assoc.get?_erase_self ..

theorem get?_afterOrder_self (s : Traffic) (id : CallId) (x : Pool × Progress Removal Nat) :
    (s.afterOrder id x).1.calls.get? id = removalOf x.2 := by
  obtain ⟨p, r | n⟩ := x
  · exact Assoc.get?_put_self ..
  · exact Assoc.get?_erase_self ..

theorem get?_afterClose_self (s : Traffic) (id : CallId) (x : Pool × Progress Removal Nat) :
    (s.afterClose id x).1.calls.get? id = removalOf x.2 := by
  obtain ⟨p, r | n⟩ := x
  · exact Assoc.get?_put_self ..
  · exact Assoc.get?_erase_self ..

theorem get?_afterOrder_of_ne (s : Traffic) {id i : CallId} (h : i ≠ id)
    (x : Pool × Progress Removal Nat) :
    (s.afterOrder id x).1.calls.get? i = s.calls.get? i := by
  obtain ⟨p, r | n⟩ := x
  · exact Assoc.get?_put_of_ne _ _ h
  · exact Assoc.get?_erase_of_ne _ h

theorem get?_afterClose_of_ne (s : Traffic) {id i : CallId} (h : i ≠ id)
    (x : Pool × Progress Removal Nat) :
    (s.afterClose id x).1.calls.get? i = s.calls.get? i := by
  obtain ⟨p, r | n⟩ := x
  · exact Assoc.get?_put_of_ne _ _ h
  · exact Assoc.get?_erase_of_ne _ h

end Traffic

/-! ## Moves -/

namespace Hub

open Pool

variable {h h' h'' : Hub} {id : CallId} {as : List Answer} {b b' b'' : Option Pool.Call}
  {now : Instant} {a : Answer}

/-- **A hub moves** while the circuits stay: on its pool a call that was busy with `b` leads the
traffic on and comes to `b'`, whatever other calls are under way. -/
structure Moves (id : CallId) (heard : List Answer) (h : Hub) (b : Option Pool.Call) (h' : Hub)
    (b' : Option Pool.Call) : Prop where
  circuits : h'.circuits = h.circuits
  leads : ∀ s : RemoteShell.Traffic, s.pool = h.pool → s.calls.get? id = b →
    ∃ t, RemoteShell.Traffic.Leads id heard s t ∧ t.pool = h'.pool ∧ t.calls.get? id = b'

namespace Moves

/-- Only the first of two moves hears anything. -/
theorem trans (hm : Moves id as h b h' b') (hm' : Moves id [] h' b' h'' b'') :
    Moves id as h b h'' b'' where
  circuits := hm'.circuits.trans hm.circuits
  leads s hpool hcall := by
    obtain ⟨t, hst, hpool', hcall'⟩ := hm.leads s hpool hcall
    obtain ⟨u, htu, hpool'', hcall''⟩ := hm'.leads t hpool' hcall'
    have hsu := hst.trans htu
    rw [List.append_nil] at hsu
    exact ⟨u, hsu, hpool'', hcall''⟩

/-- What is no business of the pool. -/
theorem still (hc : h'.circuits = h.circuits) (hp : h'.pool = h.pool) :
    Moves id [] h b h' b where
  circuits := hc
  leads s hpool hcall := ⟨s, .refl id s, hpool.trans hp.symm, hcall⟩

/-- One event on the pool, when every traffic on it that the call may find can make the event. -/
theorem event (e : Pool.Event) (now : Instant) (he : ∀ i, e ≠ .abandon i)
    (hc : h'.circuits = h.circuits)
    (step : ∀ s : RemoteShell.Traffic, s.pool = h.pool → s.calls.get? id = b →
      ∃ r, s.step now e = some r ∧ r.1.pool = h'.pool ∧ r.1.calls.get? id = b' ∧
        ∀ i, i ≠ id → r.1.calls.get? i = s.calls.get? i) :
    Moves id e.answer?.toList h b h' b' where
  circuits := hc
  leads s hpool hcall := by
    obtain ⟨r, hr, hpool', hcall', others⟩ := step s hpool hcall
    exact ⟨r.1, .event hr he others, hpool', hcall'⟩

theorem touch (h : Hub) (c : Option ConnId) (now : Instant) :
    Moves id [] h b (h.touch c now) b := by
  cases c with
  | none => exact still rfl rfl
  | some c =>
    refine event (.use c) now nofun rfl fun s hpool hcall => ⟨_, rfl, ?_, hcall, fun _ _ => rfl⟩
    exact congrArg (fun p : Pool => p.touch c now) hpool

/-- An event that a search makes or hears. -/
theorem ofSearch {step : Pool → Pool × Progress Get Get.Result} (e : Pool.Event) (now : Instant)
    (he : ∀ i, e ≠ .abandon i)
    (hstep : ∀ s : RemoteShell.Traffic, s.pool = h.pool → s.calls.get? id = b →
      s.step now e = some (s.afterSearch id (step h.pool))) :
    Moves id e.answer?.toList h b (h.onPool step).1 (searchOf (h.onPool step).2) := by
  refine event e now he rfl fun s hpool hcall => ?_
  exact ⟨_, hstep s hpool hcall, s.pool_afterSearch id _, s.get?_afterSearch_self id _,
    fun i hi => s.get?_afterSearch_of_ne hi _⟩

/-- A search begins. -/
theorem search (id : CallId) (t : Target) (now : Instant) (h : Hub) :
    Moves id [] h none (h.onPool (Get.start id t now)).1
      (searchOf (h.onPool (Get.start id t now)).2) := by
  refine ofSearch (.search id t) now nofun fun s hpool hcall => ?_
  rw [RemoteShell.Traffic.step, if_neg (by simp [Assoc.has, hcall]), hpool]

/-- An order begins. -/
theorem order (id : CallId) (o : Order) (now : Instant) (h : Hub) :
    Moves id [] h none (h.onPool (o.start now)).1 (removalOf (h.onPool (o.start now)).2) := by
  refine event (.order id o) now nofun rfl fun s hpool hcall => ?_
  refine ⟨s.afterOrder id (o.start now h.pool), ?_, s.pool_afterOrder id _,
    s.get?_afterOrder_self id _, fun i hi => s.get?_afterOrder_of_ne hi _⟩
  rw [RemoteShell.Traffic.step, if_neg (by simp [Assoc.has, hcall]), hpool]

/-- A search goes on. -/
theorem hears {g : Get} (ha : (Pool.Call.search g).mayHear h.pool a = true) (now : Instant) :
    Moves id [a] h (some (.search g)) (h.onPool (g.resume a now)).1
      (searchOf (h.onPool (g.resume a now)).2) := by
  refine ofSearch (.answer id a) now nofun fun s hpool hcall => ?_
  rw [RemoteShell.Traffic.step, hcall, Option.bind_some, hpool, if_pos ha,
    RemoteShell.Traffic.resume, hpool]

/-- A removal goes on. -/
theorem closes {r : Removal} (ha : (Pool.Call.removal r).mayHear h.pool a = true)
    (now : Instant) :
    Moves id [a] h (some (.removal r)) (h.onPool (r.resume a)).1
      (removalOf (h.onPool (r.resume a)).2) := by
  refine event (.answer id a) now nofun rfl fun s hpool hcall => ?_
  refine ⟨s.afterClose id (r.resume a h.pool), ?_, s.pool_afterClose id _,
    s.get?_afterClose_self id _, fun i hi => s.get?_afterClose_of_ne hi _⟩
  rw [RemoteShell.Traffic.step, hcall, Option.bind_some, hpool, if_pos ha,
    RemoteShell.Traffic.resume, hpool]

end Moves

end Hub

/-! ## Turns -/

/-- What elevation may hear delivers no connection and closes none. -/
theorem Elevation.Climb.plain_of_mayHear {climb : Climb} {e : Engine} {a : Answer}
    (ha : climb.mayHear e a = true) : a.delivered? = none ∧ a.closed? = none := by
  obtain ⟨caller, key, command, timeout, on, cell, phase⟩ := climb
  rcases phase with _ | ⟨r | ⟨q, next⟩⟩
  · cases a with
    | admitted => exact ⟨rfl, rfl⟩
    | _ => cases ha
  · cases ha
  · have htake : (q.take? a).isSome := ha
    cases a with
    | connected r => cases q <;> cases htake
    | closed c => cases q <;> cases htake
    | _ => exact ⟨rfl, rfl⟩

namespace Execution

open Pool

variable {x : Execution} {h h' : Hub} {id : CallId} {task : Task} {as : List Answer}
  {b b' : Option Pool.Call} {now : Instant} {c : ConnId} {a : Answer}

/-- **A turn of a command** that was busy with `b` on the pool: the hub moves while the circuits
stay, and the command comes to its next wait, or it ends and its result is reported, or it breaks
off. -/
inductive Turn (id : CallId) (task : Task) (heard : List Answer) (now : Instant) (h : Hub)
    (b : Option Pool.Call) : Hub × Progress Execution Result → Prop
  | waits {h' : Hub} {y : Execution} (caller : y.caller = id) (same : y.task = task)
      (moves : h.Moves id heard b h' y.poolCall?) : Turn id task heard now h b (h', .waits y)
  | ends {h' : Hub} {r : Except Fault Outcome} (moves : h.Moves id heard b h' none) :
      Turn id task heard now h b (report task.target.host r now h', .ends (.finished r))
  | crashes {h' : Hub} (moves : h.Moves id heard b h' none) :
      Turn id task heard now h b (h', .ends .crashed)

/-- A move of the hub before a turn belongs to the turn. -/
theorem Turn.after {r : Hub × Progress Execution Result} (ht : Turn id task [] now h' b' r)
    (hm : h.Moves id as b h' b') : Turn id task as now h b r := by
  cases ht with
  | waits caller same moves => exact .waits caller same (hm.trans moves)
  | ends moves => exact .ends (hm.trans moves)
  | crashes moves => exact .crashes (hm.trans moves)

/-- A command goes on with its own task. -/
theorem Turn.task_of_waits {r : Hub × Progress Execution Result} (ht : Turn id task as now h b r)
    (hr : r.2 = .waits y) : y.task = task := by
  cases ht with
  | waits caller same moves =>
    cases hr
    exact same
  | ends moves => cases hr
  | crashes moves => cases hr

/-! ### From wait to wait -/

theorem finish_turn (x : Execution) (r : Except Fault Outcome) (now : Instant) (h : Hub) :
    Turn x.caller x.task [] now h none (x.finish r now h) :=
  .ends (.still rfl rfl)

theorem retry_turn (x : Execution) (f : Fault) (now : Instant) (h : Hub) :
    Turn x.caller x.task [] now h none (x.retry f now h) := by
  unfold retry
  split
  · exact .waits rfl rfl (.still rfl rfl)
  · exact x.finish_turn _ now h

/-- A removal comes to its next wait, or the command goes on in some way. -/
theorem removal_turn (x : Execution) (φ : Removal → Phase) {p : Hub × Progress Removal Nat}
    {k : Hub → Hub × Progress Execution Result}
    (hφ : ∀ r, poolCall? { x with phase := φ r } = some (.removal r))
    (hk : ∀ h, Turn x.caller x.task [] now h none (k h)) :
    h.Moves x.caller as b p.1 (removalOf p.2) →
      Turn x.caller x.task as now h b
        (match p with
          | (h, .waits r) => x.goOn (φ r) h
          | (h, .ends _) => k h) := by
  intro hm
  obtain ⟨h', r | n⟩ := p
  · exact .waits rfl rfl ((hφ r).symm ▸ hm)
  · exact (hk h').after hm

theorem discard_turn (x : Execution) (c : ConnId) (f : Fault) (now : Instant) (h : Hub) :
    Turn x.caller x.task [] now h none (x.discard c f now h) := by
  unfold discard
  split
  · exact x.removal_turn (.discarding · f) (fun _ => rfl) (x.retry_turn f now)
      (.order x.caller (.one c) now h)
  · exact x.retry_turn f now h

theorem drop_turn (x : Execution) (c : ConnId) (f : Fault) (now : Instant) (h : Hub) :
    Turn x.caller x.task [] now h none (x.drop c f now h) := by
  unfold drop
  split
  · exact x.removal_turn (.dropping · f) (fun _ => rfl) (x.finish_turn _ now)
      (.order x.caller (.one c) now h)
  · exact x.finish_turn _ now h

theorem afterGet_turn {p : Hub × Progress Get Get.Result}
    (hm : h.Moves x.caller as b p.1 (searchOf p.2)) :
    Turn x.caller x.task as now h b (x.afterGet now p) := by
  obtain ⟨h', g | f | c⟩ := p
  · exact .waits rfl rfl hm
  · exact (x.retry_turn f now h').after hm
  · exact .waits rfl rfl (hm.trans (.touch h' (some c) now))

theorem tryOnce_turn (x : Execution) (now : Instant) (h : Hub) :
    Turn x.caller x.task [] now h none (x.tryOnce now h) :=
  afterGet_turn (x := { x with attempts := x.attempts + 1 })
    (.search x.caller x.task.target now h)

/-- Elevation is none of the pool's business, but for the uses of the connection. -/
theorem afterClimb_turn {p : Hub × Progress Elevation.Climb Elevation.Climb.Result}
    (hm : h.Moves x.caller as none p.1 none) :
    Turn x.caller x.task as now h none (x.afterClimb c now p) := by
  obtain ⟨h', climb | (f | e) | _⟩ := p
  · exact .waits rfl rfl (hm.trans (.touch h' climb.running? now))
  · exact (x.drop_turn c f now h').after hm
  · exact (x.finish_turn _ now h').after hm
  · exact .crashes hm

theorem afterReply_turn (x : Execution) (c : ConnId) (key : Login) (r : Reply) (now : Instant)
    (h : Hub) : Turn x.caller x.task [] now h none (x.afterReply c key r now h) := by
  unfold afterReply
  split
  · exact afterClimb_turn (.still rfl rfl)
  · exact x.finish_turn _ now h

/-! ### Whole turns -/

/-- **A command goes on** with an answer that it may hear. -/
theorem resume_turn (ha : x.mayHear h a = true) (now : Instant) :
    ∃ heard, heard.filterMap Answer.delivered? = a.delivered?.toList ∧
      heard.filterMap Answer.closed? = a.closed?.toList ∧
      Turn x.caller x.task heard now h x.poolCall? (x.resume a now h) := by
  -- The pool hears the answer if the command is busy with it, and else nothing.
  have hheard : [a].filterMap Answer.delivered? = a.delivered?.toList ∧
      [a].filterMap Answer.closed? = a.closed?.toList :=
    ⟨filterMap_singleton .., filterMap_singleton ..⟩
  obtain ⟨caller, task, attempts, delay, phase⟩ := x
  cases phase with
  | getting g => exact ⟨[a], hheard.1, hheard.2, afterGet_turn (.hears ha now)⟩
  | running c =>
    cases a with
    | replied r =>
      refine ⟨[], rfl, rfl, ?_⟩
      cases r with
      | error f => exact (discard_turn _ c f now _).after (.touch h (some c) now)
      | ok r => exact (afterReply_turn _ c _ r now _).after (.touch h (some c) now)
    | _ => cases ha
  | discarding r f =>
    refine ⟨[a], hheard.1, hheard.2, ?_⟩
    exact removal_turn _ (.discarding · f) (fun _ => rfl) (retry_turn _ f now) (.closes ha now)
  | backingOff =>
    cases a with
    | done =>
      have hturn := tryOnce_turn
        ⟨caller, task, attempts, nextDelay task.retry delay, .backingOff⟩ now h
      exact ⟨[], rfl, rfl, hturn⟩
    | _ => cases ha
  | elevating c climb =>
    obtain ⟨hdelivered, hclosed⟩ := Elevation.Climb.plain_of_mayHear ha
    refine ⟨[], by rw [hdelivered]; rfl, by rw [hclosed]; rfl, ?_⟩
    exact afterClimb_turn ((Hub.Moves.touch h climb.running? now).trans (.still rfl rfl))
  | dropping r f =>
    refine ⟨[a], hheard.1, hheard.2, ?_⟩
    exact removal_turn _ (.dropping · f) (fun _ => rfl) (finish_turn _ _ now) (.closes ha now)

/-- **A command begins**: it is refused before anything is touched, or by the circuit of its host,
or it is admitted and makes its first turn. -/
theorem start_cases (id : CallId) (t : Task) (cancelled : Bool) (now : Instant) (h : Hub) :
    (∃ f, refusal t cancelled = .error f ∧
      start id t cancelled now h = (h, .ends (.finished (.error f)))) ∨
    (∃ f, refusal t cancelled = .ok () ∧ (h.circuits.acquire t.target.host now).1 = .error f ∧
      start id t cancelled now h =
        ({ h with circuits := (h.circuits.acquire t.target.host now).2 },
          .ends (.finished (.error f)))) ∨
    (refusal t cancelled = .ok () ∧ (h.circuits.acquire t.target.host now).1 = .ok () ∧
      Turn id t [] now { h with circuits := (h.circuits.acquire t.target.host now).2 } none
        (start id t cancelled now h)) := by
  unfold start
  cases refusal t cancelled with
  | error f => exact .inl ⟨f, rfl, rfl⟩
  | ok u =>
    refine .inr ?_
    obtain ⟨f | u, circuits⟩ := h.circuits.acquire t.target.host now
    · exact .inl ⟨f, rfl, rfl, rfl⟩
    · exact .inr ⟨rfl, rfl, tryOnce_turn ⟨id, t, 0, _, _⟩ now _⟩

end Execution

end RemoteShell
