import Mathlib.Data.List.Induction
import RemoteShell.Proofs.Execution.Turns
import RemoteShell.Proofs.Pool.Custody

/-!
# What the pool sees of a hub

Whatever happens on a hub, its pool sees traffic of its own: a command that looks for a connection
is a search there, one that drops a connection is an order, and a call that is cancelled or given up
while it is busy with the pool gives up its search or removal.  So every run on a hub is reflected
by a run on its pool, with the same deliveries and the same closes, and all that is known of the
traffic on a pool holds of the pool of a hub.

## Main definitions

* `Traffic.Mirrors`: traffic on a pool is what the pool of a hub sees
* `Traffic.delivered`, `Traffic.closed`, `Traffic.Closing`: the connections of a run on a hub
* `Traffic.Reflects`: events on the pool reflect what happened on the hub

## Main results

* `reflects_step`, `exists_reflection`: one event and many
-/

namespace RemoteShell

namespace Traffic

open Pool

variable {s t : Traffic} {es fs : List (Instant × Event)} {P : Traffic → Instant → Event → Prop}

/-- Some moment of a run of two parts is in the first part or in the second. -/
theorem sometime_append_iff (h : s.run es = some t) :
    s.Sometime (es ++ fs) P ↔ s.Sometime es P ∨ t.Sometime fs P := by
  induction fs using List.reverseRecOn with
  | nil => simp [not_sometime_nil]
  | append_singleton fs x ih =>
    obtain ⟨now, e⟩ := x
    rw [← List.append_assoc, sometime_snoc_iff, sometime_snoc_iff, ih, run_append, h,
      Option.bind_some, or_assoc]

theorem sometime_singleton_iff {now : Instant} {e : Event} :
    s.Sometime [(now, e)] P ↔ P s now e := by
  rw [← List.nil_append [(now, e)], sometime_snoc_iff]
  simp [not_sometime_nil, run]

end Traffic

namespace Hub

/-- The answer that an event brings. -/
def Event.answer? : Event → Option Answer
  | .answer _ a => some a
  | _ => none

/-- The connection that an event delivers. -/
def Event.delivered? (e : Event) : Option ConnId := e.answer?.bind Answer.delivered?

/-- The connection whose close is over by an event. -/
def Event.closed? (e : Event) : Option ConnId := e.answer?.bind Answer.closed?

namespace Traffic

open RemoteShell.Traffic (Leads answers GivesUpClose)

variable {s t : Traffic} {now : Instant} {e : Event} {id i : CallId} {c : ConnId}
  {es : List (Instant × Event)} {settings : Settings} {walk : Pool.Walk} {T U : RemoteShell.Traffic}
  {fs gs : List (Instant × Pool.Event)} {h h' : Hub} {heard : List Answer}
  {b b' : Option Pool.Call}

/-- **The connections that were delivered**: calls that waited for one were told of them. -/
def delivered (es : List (Instant × Event)) : List ConnId := es.filterMap fun x => x.2.delivered?

/-- **The connections whose close is over**: calls that waited for it were told so. -/
def closed (es : List (Instant × Event)) : List ConnId := es.filterMap fun x => x.2.closed?

/-- A call under way waits for the close of a connection. -/
def Closing (s : Traffic) (c : ConnId) : Prop :=
  ∃ id call, s.calls.get? id = some call ∧ c ∈ call.closing

/-! ## Mirrors -/

/-- **Traffic on a pool mirrors a hub**: the pool is that of the hub, and the calls are those that
the calls of the hub are busy with. -/
structure Mirrors (s : Traffic) (T : RemoteShell.Traffic) : Prop where
  pool : T.pool = s.hub.pool
  calls : ∀ i, T.calls.get? i = (s.calls.get? i).bind Call.poolCall?
  -- A command knows the number of its call.
  callers : ∀ i x, s.calls.get? i = some (.execution x) → x.caller = i

theorem Mirrors.idle (settings : Settings) (walk : Pool.Walk) :
    (Traffic.idle settings walk).Mirrors (.idle settings.pool walk) where
  pool := rfl
  calls _ := rfl
  callers _ _ hx := by cases hx

theorem Mirrors.get?_of_new (hm : s.Mirrors T) (hnew : s.calls.get? id = none) :
    T.calls.get? id = none := by
  rw [hm.calls, hnew]
  rfl

theorem Mirrors.get?_of_call {call : Call} (hm : s.Mirrors T)
    (hcall : s.calls.get? id = some call) : T.calls.get? id = call.poolCall? := by
  rw [hm.calls, hcall]
  rfl

theorem Mirrors.closing_iff (hm : s.Mirrors T) : T.Closing c ↔ s.Closing c := by
  constructor
  · rintro ⟨id, call, hcall, hc⟩
    rw [hm.calls] at hcall
    obtain ⟨call', hcall', hpool⟩ := Option.bind_eq_some_iff.mp hcall
    exact ⟨id, call', hcall', by rwa [Call.closing, hpool]⟩
  · rintro ⟨id, call, hcall, hc⟩
    rw [Call.closing] at hc
    cases hpool : call.poolCall? with
    | none =>
      rw [hpool] at hc
      cases hc
    | some call' =>
      rw [hpool] at hc
      exact ⟨id, call', (hm.get?_of_call hcall).trans hpool, hc⟩

/-- One call comes to something else, on the hub and on its pool, and the others stay. -/
theorem Mirrors.follow (hm : s.Mirrors T) (hpool : U.pool = t.hub.pool)
    (hcall : U.calls.get? id = (t.calls.get? id).bind Call.poolCall?)
    (hcaller : ∀ x, t.calls.get? id = some (.execution x) → x.caller = id)
    (hU : ∀ i, i ≠ id → U.calls.get? i = T.calls.get? i)
    (ht : ∀ i, i ≠ id → t.calls.get? i = s.calls.get? i) : t.Mirrors U where
  pool := hpool
  calls i := by
    by_cases hi : i = id
    · exact hi ▸ hcall
    · rw [hU i hi, ht i hi]
      exact hm.calls i
  callers i x hx := by
    by_cases hi : i = id
    · exact hi ▸ hcaller x (hi ▸ hx)
    · exact hm.callers i x (ht i hi ▸ hx)

/-- A hub moves by one call: the traffic that the pool sees follows. -/
theorem Mirrors.moves (hm : s.Mirrors T) (hmoves : h.Moves id heard b h' b')
    (hpool : h.pool = s.hub.pool) (hb : T.calls.get? id = b) (hpool' : t.hub.pool = h'.pool)
    (hcall : (t.calls.get? id).bind Call.poolCall? = b')
    (hcaller : ∀ x, t.calls.get? id = some (.execution x) → x.caller = id)
    (ht : ∀ i, i ≠ id → t.calls.get? i = s.calls.get? i) :
    ∃ U, Leads id heard T U ∧ t.Mirrors U := by
  obtain ⟨U, hleads, hU, hcallU⟩ := hmoves.leads T (hm.pool.trans hpool.symm) hb
  exact ⟨U, hleads, hm.follow (hU.trans hpool'.symm) (hcallU.trans hcall.symm) hcaller
    hleads.others ht⟩

theorem pool_report (host : String) (r : Except Fault Execution.Outcome) (now : Instant)
    (h : Hub) : (Execution.report host r now h).pool = h.pool := by
  unfold Execution.report
  split
  · rfl
  · rfl
  · split <;> rfl

/-- A turn of a command. -/
theorem Mirrors.turn {task : Execution.Task} {x : Hub × Progress Execution Execution.Result}
    (hm : s.Mirrors T) (hx : Execution.Turn id task heard now h b x)
    (hpool : h.pool = s.hub.pool) (hb : T.calls.get? id = b) (host : String) (admitted : Bool) :
    ∃ U, Leads id heard T U ∧ (s.after id host admitted now x).Mirrors U := by
  have hothers (i : CallId) (hi : i ≠ id) := s.get?_after_of_ne hi host admitted now x
  have hends {h' : Hub} {r : Execution.Result} :
      (s.after id host admitted now (h', .ends r)).calls.get? id = none :=
    Assoc.get?_erase_self ..
  cases hx with
  | waits caller same moves =>
    refine hm.moves moves hpool hb rfl ?_ ?_ hothers
    · simp [after, Call.poolCall?]
    · simpa [after] using caller
  | ends moves =>
    exact hm.moves moves hpool hb (pool_report ..) (by rw [hends]; rfl) (by simp [hends]) hothers
  | crashes moves =>
    exact hm.moves moves hpool hb rfl (by rw [hends]; rfl) (by simp [hends]) hothers

/-- A turn of a removal. -/
theorem Mirrors.removal {x : Hub × Progress Pool.Removal Nat} (hm : s.Mirrors T)
    (hmoves : s.hub.Moves id heard b x.1 (Pool.removalOf x.2)) (hb : T.calls.get? id = b) :
    ∃ U, Leads id heard T U ∧ (s.afterRemoval id x).Mirrors U := by
  have hothers (i : CallId) (hi : i ≠ id) := s.get?_afterRemoval_of_ne hi x
  obtain ⟨h', r | n⟩ := x
  · exact hm.moves hmoves rfl hb rfl (by simp [afterRemoval, Call.poolCall?, Pool.removalOf])
      (by simp [afterRemoval]) hothers
  · exact hm.moves hmoves rfl hb rfl (by simp [afterRemoval, Pool.removalOf])
      (by simp [afterRemoval]) hothers

/-! ## Calls that are given up -/

theorem pool_abandon_of_none {call : Call} (hc : call.poolCall? = none) :
    (call.abandon h).pool = h.pool := by
  obtain ⟨caller, task, attempts, delay, phase⟩ | r := call
  · cases phase with
    | getting g => cases hc
    | _ => rfl
  · rfl

theorem pool_abandon_of_some {call : Call} {c : Pool.Call} (hc : call.poolCall? = some c)
    (hT : T.pool = h.pool) : (T.abandon id c).pool = (call.abandon h).pool := by
  obtain ⟨caller, task, attempts, delay, phase⟩ | r := call
  · cases phase with
    | getting g =>
      cases hc
      exact congrArg g.abandon hT
    | discarding r f =>
      cases hc
      exact hT
    | dropping r f =>
      cases hc
      exact hT
    | _ => cases hc
  · cases hc
    exact hT

/-! ## Reflections -/

/-- **Events on the pool reflect what happened on a hub** between two moments: the connections that
were delivered and closed are the same, and closes are given up on the pool when calls that wait for
them are given up on the hub. -/
structure Reflects (s t : Traffic) (ds cs : List ConnId) (T : RemoteShell.Traffic)
    (fs : List (Instant × Pool.Event)) (U : RemoteShell.Traffic) : Prop where
  run : T.run fs = some U
  mirrors : t.Mirrors U
  delivered : RemoteShell.Traffic.delivered fs = ds
  closed : RemoteShell.Traffic.closed fs = cs
  orphans : ∀ c, c ∈ t.orphans ↔ c ∈ s.orphans ∨ T.Sometime fs (GivesUpClose c)

namespace Reflects

variable {u : Traffic} {V : RemoteShell.Traffic} {ds cs ds' cs' : List ConnId}

theorem trans (hr : s.Reflects t ds cs T fs U) (hr' : t.Reflects u ds' cs' U gs V) :
    s.Reflects u (ds ++ ds') (cs ++ cs') T (fs ++ gs) V where
  run := by rw [RemoteShell.Traffic.run_append, hr.run, Option.bind_some, hr'.run]
  mirrors := hr'.mirrors
  delivered := by rw [RemoteShell.Traffic.delivered_append, hr.delivered, hr'.delivered]
  closed := by rw [RemoteShell.Traffic.closed_append, hr.closed, hr'.closed]
  orphans c := by
    rw [hr'.orphans, hr.orphans, RemoteShell.Traffic.sometime_append_iff hr.run, or_assoc]

/-- Nothing that the pool sees. -/
theorem unseen (hm : t.Mirrors T) (ho : t.orphans = s.orphans) : s.Reflects t [] [] T [] T where
  run := rfl
  mirrors := hm
  delivered := rfl
  closed := rfl
  orphans c := by simp [ho, RemoteShell.Traffic.not_sometime_nil]

/-- A call that leads the traffic on gives nothing up. -/
theorem of_leads (hl : Leads id heard T U) (hm : t.Mirrors U) (ho : t.orphans = s.orphans) :
    ∃ fs, s.Reflects t (heard.filterMap Answer.delivered?) (heard.filterMap Answer.closed?)
      T fs U := by
  obtain ⟨fs, hrun, rfl, hnone⟩ := hl.run
  refine ⟨fs, hrun, hm, RemoteShell.Traffic.delivered_eq_answers fs,
    RemoteShell.Traffic.closed_eq_answers fs, fun c => ?_⟩
  rw [ho]
  refine (or_iff_left ?_).symm
  rintro ⟨before, now, e, after, u, rfl, -, i, call, rfl, -⟩
  exact hnone (now, .abandon i) (by simp) i rfl

/-- **A call is given up**: the pool sees so if the call is busy with it. -/
theorem of_quit {call : Call} (hm : s.Mirrors T) (hcall : s.calls.get? id = some call)
    (hpool : t.hub.pool = (call.abandon s.hub).pool) (hcalls : t.calls = s.calls.erase id)
    (ho : t.orphans = s.orphans ++ call.closing) (now : Instant) :
    ∃ fs U, s.Reflects t [] [] T fs U := by
  have hown : t.calls.get? id = none := by rw [hcalls, Assoc.get?_erase_self]
  have hrest (i : CallId) (hi : i ≠ id) : t.calls.get? i = s.calls.get? i := by
    rw [hcalls, Assoc.get?_erase_of_ne _ hi]
  have hbusy : T.calls.get? id = call.poolCall? := hm.get?_of_call hcall
  cases hpc : call.poolCall? with
  | none =>
    rw [hpc] at hbusy
    refine ⟨[], T, unseen (hm.follow ?_ ?_ (by simp [hown]) (fun _ _ => rfl) hrest) ?_⟩
    · rw [hpool, pool_abandon_of_none hpc]
      exact hm.pool
    · rw [hbusy, hown]
      rfl
    · rw [ho, Call.closing, hpc]
      exact List.append_nil _
  | some c =>
    rw [hpc] at hbusy
    have herase : (T.abandon id c).calls = T.calls.erase id := by cases c <;> rfl
    have hmirrors : t.Mirrors (T.abandon id c) := by
      refine hm.follow ?_ ?_ (by simp [hown]) (fun i hi => ?_) hrest
      · rw [hpool]
        exact pool_abandon_of_some hpc hm.pool
      · rw [herase, Assoc.get?_erase_self, hown]
        rfl
      · rw [herase, Assoc.get?_erase_of_ne _ hi]
    refine ⟨[(now, .abandon id)], T.abandon id c, ?_, hmirrors, rfl, rfl, fun d => ?_⟩
    · simp [RemoteShell.Traffic.run, RemoteShell.Traffic.step, hbusy]
    · rw [ho, List.mem_append, RemoteShell.Traffic.sometime_singleton_iff, Call.closing, hpc]
      refine or_congr_right ⟨fun hd => ⟨id, c, rfl, hbusy, hd⟩, ?_⟩
      rintro ⟨i, c', hi, hc', hd⟩
      cases hi
      cases hbusy.symm.trans hc'
      exact hd

end Reflects

/-- **One event on a hub is reflected by its pool.** -/
theorem reflects_step (hm : s.Mirrors T) (hs : s.step now e = some t) :
    ∃ fs U, s.Reflects t e.delivered?.toList e.closed?.toList T fs U := by
  cases happens hs with
  | @executes id task cancelled new =>
    have hbusy : T.calls.get? id = none := hm.get?_of_new new
    have hends (h : Hub) (r : Execution.Result) (admitted : Bool) (hpool : h.pool = s.hub.pool) :
        ∃ U, Leads id [] T U ∧
          (s.after id task.target.host admitted now (h, .ends r)).Mirrors U := by
      have hnone : (s.after id task.target.host admitted now (h, .ends r)).calls.get? id = none :=
        Assoc.get?_erase_self ..
      exact hm.moves (.still rfl rfl) rfl hbusy hpool (by rw [hnone]; rfl) (by simp [hnone])
        fun i hi => s.get?_after_of_ne hi _ _ now _
    have hled : ∃ U, Leads id [] T U ∧
        (s.after id task.target.host (s.hub.admits task cancelled now) now
          (Execution.start id task cancelled now s.hub)).Mirrors U := by
      rcases Execution.start_cases id task cancelled now s.hub with
        ⟨f, -, hstart⟩ | ⟨f, -, -, hstart⟩ | ⟨-, -, hturn⟩
      · rw [hstart]
        exact hends s.hub _ _ rfl
      · rw [hstart]
        exact hends { s.hub with circuits := (s.hub.circuits.acquire _ now).2 } _ _ rfl
      · exact hm.turn hturn rfl hbusy _ _
    obtain ⟨U, hl, hU⟩ := hled
    obtain ⟨fs, hfs⟩ := Reflects.of_leads hl hU (s.orphans_after id _ _ now _)
    exact ⟨fs, U, hfs⟩
  | @orders id o new =>
    obtain ⟨U, hl, hU⟩ := hm.removal (.order id o now s.hub) (hm.get?_of_new new)
    obtain ⟨fs, hfs⟩ := Reflects.of_leads hl hU (s.orphans_afterRemoval id _)
    exact ⟨fs, U, hfs⟩
  | @resumes id a x call hears =>
    obtain ⟨heard, hdelivered, hclosed, hturn⟩ := Execution.resume_turn hears now
    rw [hm.callers id x call] at hturn
    obtain ⟨U, hl, hU⟩ := hm.turn hturn rfl (hm.get?_of_call call) x.task.target.host true
    obtain ⟨fs, hfs⟩ := Reflects.of_leads hl hU (s.orphans_after id _ _ now _)
    rw [hdelivered, hclosed] at hfs
    exact ⟨fs, U, hfs⟩
  | @removes id a r call hears =>
    obtain ⟨U, hl, hU⟩ := hm.removal (.closes hears now) (hm.get?_of_call call)
    obtain ⟨fs, hfs⟩ := Reflects.of_leads hl hU (s.orphans_afterRemoval id _)
    rw [filterMap_singleton, filterMap_singleton] at hfs
    exact ⟨fs, U, hfs⟩
  | cancels call => exact Reflects.of_quit hm call rfl rfl rfl now
  | abandons call => exact Reflects.of_quit hm call rfl rfl rfl now
  | resets host => exact ⟨[], T, .unseen ⟨hm.pool, hm.calls, hm.callers⟩ rfl⟩
  | clears host => exact ⟨[], T, .unseen ⟨hm.pool, hm.calls, hm.callers⟩ rfl⟩

theorem delivered_snoc (es : List (Instant × Event)) (x : Instant × Event) :
    delivered (es ++ [x]) = delivered es ++ x.2.delivered?.toList := by
  rw [delivered, List.filterMap_append, filterMap_singleton]
  rfl

theorem closed_snoc (es : List (Instant × Event)) (x : Instant × Event) :
    closed (es ++ [x]) = closed es ++ x.2.closed?.toList := by
  rw [closed, List.filterMap_append, filterMap_singleton]
  rfl

/-- **What happens on a hub is reflected by its pool**: there is traffic on the pool alone that
delivers and closes the same connections, mirrors the hub at the end, and in which the closes of the
same connections are given up. -/
theorem exists_reflection (h : (idle settings walk).run es = some s) :
    ∃ fs T, (idle settings walk).Reflects s (delivered es) (closed es)
      (.idle settings.pool walk) fs T := by
  induction es using List.reverseRecOn generalizing s with
  | nil =>
    cases h
    exact ⟨[], _, .unseen (.idle settings walk) rfl⟩
  | append_singleton es x ih =>
    obtain ⟨u, hu, hstep⟩ := run_snoc_eq_some.mp h
    obtain ⟨fs, T, hfs⟩ := ih hu
    obtain ⟨gs, U, hgs⟩ := reflects_step hfs.mirrors hstep
    rw [delivered_snoc, closed_snoc]
    exact ⟨fs ++ gs, U, hfs.trans hgs⟩

end Traffic

end Hub

end RemoteShell
