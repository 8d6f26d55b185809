import RemoteShell.Proofs.Pool.Traffic
import RemoteShell.Proofs.Pool.Turns

/-!
# How a pool grows

A pool knows every connection that it was ever given.  Whatever a call does, the settings stay as
they are and no record goes away, and a record comes only when a search is told of a new connection.
So the records of a pool can be read off what its calls were told: they are those of the connections
that were delivered, in the order in which they came.

## Main definitions

* `Pool.ids`: the connections that have a record
* `Pool.Grows`: a change adds the records of connections and leaves the settings alone
* `Traffic.delivered`: the connections that the searches of a run were told of

## Main results

* `grows_step`, `grows_run`: one event and many
* `mem_delivered_iff`: a connection has a record if and only if it was delivered
-/

namespace RemoteShell

theorem filterMap_singleton {α β : Type} (f : α → Option β) (a : α) :
    [a].filterMap f = (f a).toList := by
  cases h : f a <;> simp [h]

/-- The connection that an answer delivers. -/
def Answer.delivered? : Answer → Option ConnId
  | .connected (.ok c) => some c
  | _ => none

namespace Pool

variable {p q r : Pool} {c : ConnId} {cs ds : List ConnId} {e : Entry} {g : Get} {now : Instant}

/-- The connections that have a record, the oldest first. -/
def ids (p : Pool) : List ConnId := p.entries.map (·.id)

theorem mem_ids : c ∈ p.ids ↔ ∃ e ∈ p.entries, e.id = c := List.mem_map

/-- **A pool grows by connections**: they get records behind those that are there, and the settings
stay. -/
structure Grows (p : Pool) (cs : List ConnId) (q : Pool) : Prop where
  settings : q.settings = p.settings
  ids : q.ids = p.ids ++ cs

namespace Grows

protected theorem refl (p : Pool) : p.Grows [] p := ⟨rfl, (List.append_nil _).symm⟩

theorem trans (h : p.Grows cs q) (h' : q.Grows ds r) : p.Grows (cs ++ ds) r where
  settings := h'.settings.trans h.settings
  ids := by rw [h'.ids, h.ids, List.append_assoc]

/-- Records that are changed and keep their numbers are no new ones. -/
theorem of_map {f : Entry → Entry} (hs : q.settings = p.settings)
    (he : q.entries = p.entries.map f) (hf : ∀ e, (f e).id = e.id) : p.Grows [] q where
  settings := hs
  ids := by
    rw [List.append_nil, Pool.ids, he, List.map_map]
    exact List.map_congr_left fun e _ => hf e

theorem modify (p : Pool) (c : ConnId) {f : Entry → Entry} (hf : ∀ e, (f e).id = e.id) :
    p.Grows [] (p.modify c f) := by
  refine of_map rfl rfl fun e => ?_
  split
  · exact hf e
  · rfl

theorem touch (p : Pool) (c : ConnId) (now : Instant) : p.Grows [] (p.touch c now) :=
  modify p c fun _ => rfl

theorem remove (p : Pool) (c : ConnId) : p.Grows [] (p.remove c) := modify p c fun _ => rfl

theorem removeAll (p : Pool) (pick : Entry → Bool) : p.Grows [] (p.removeAll pick) := by
  refine of_map rfl rfl fun e => ?_
  split <;> rfl

theorem noteClosed (p : Pool) (c : ConnId) : p.Grows [] (p.noteClosed c) := by
  rw [noteClosed_eq]
  exact ⟨rfl, (List.append_nil _).symm⟩

theorem evict {keep : Option Login} (h : p.evict? keep = some (e, q)) : p.Grows [] q := by
  obtain ⟨-, rfl⟩ := evict?_eq_some h
  exact ⟨rfl, (remove p e.id).ids⟩

/-- A new connection gets a record behind all others. -/
theorem insert (p : Pool) (c : ConnId) (t : Target) (now : Instant) :
    p.Grows [c] (p.insert c t now) where
  settings := rfl
  ids := by
    rw [Pool.ids, Pool.insert, List.map_append, List.map_map]
    congr 1
    refine List.map_congr_left fun e _ => ?_
    dsimp only [Function.comp]
    split <;> rfl

end Grows

/-! ## Searches -/

namespace Get

theorem grows_finish (g : Get) (r : Result) (p : Pool) : p.Grows [] (g.finish r p).1 := by
  cases r with
  | ok c => exact ⟨rfl, (List.append_nil _).symm⟩
  | error f => exact ⟨rfl, (List.append_nil _).symm⟩

theorem grows_makeRoom (g : Get) (p : Pool) : p.Grows [] (g.makeRoom p).1 := by
  unfold makeRoom
  split
  · next hq => exact .evict hq
  · exact .refl p

theorem grows_trim (g : Get) (made : ConnId) (p : Pool) : p.Grows [] (g.trim made p).1 := by
  unfold trim
  split
  · next hq => exact .evict hq
  · exact g.grows_finish _ p

theorem grows_lookUp (g : Get) (now : Instant) (p : Pool) : p.Grows [] (g.lookUp now p).1 := by
  unfold lookUp
  split
  · exact g.grows_makeRoom p
  · split
    · exact .remove p _
    · exact .refl p

theorem grows_start (caller : CallId) (t : Target) (now : Instant) (p : Pool) :
    p.Grows [] (start caller t now p).1 := by
  unfold start
  cases t.validate with
  | error f => exact .refl p
  | ok u =>
    -- The lock is none of the records' business.
    have hlock : p.Grows [] (asking caller t p).2 := ⟨rfl, (List.append_nil _).symm⟩
    dsimp only
    split
    · exact hlock.trans (grows_lookUp (asking caller t p).1 now _)
    · exact hlock

/-- **A search adds a record only when it is told of a new connection.** -/
theorem grows_resume {a : Answer} (ha : (Call.search g).mayHear p a = true) (now : Instant) :
    p.Grows a.delivered?.toList (g.resume a now p).1 := by
  obtain ⟨caller, t, lock, phase⟩ := g
  cases phase with
  | queued =>
    cases a with
    | admitted => exact grows_lookUp _ now p
    | _ => cases ha
  | probing c =>
    cases a with
    | alive b =>
      cases b with
      | true =>
        have hreused : p.Grows [] (p.noteReused c now) := ⟨rfl, (Grows.touch p c now).ids⟩
        exact hreused.trans (grows_finish _ _ _)
      | false => exact .remove p c
    | _ => cases ha
  | replacing c =>
    cases a with
    | closed n => exact (Grows.noteClosed p c).trans (grows_makeRoom _ _)
    | _ => cases ha
  | clearing c =>
    cases a with
    | closed n => exact (Grows.noteClosed p c).trans (grows_makeRoom _ _)
    | _ => cases ha
  | connecting =>
    cases a with
    | connected r =>
      cases r with
      | error f => exact grows_finish _ _ p
      | ok c => exact (Grows.insert p c t now).trans (grows_trim _ c _)
    | _ => cases ha
  | trimming c made =>
    cases a with
    | closed n => exact (Grows.noteClosed p c).trans (grows_trim _ made _)
    | _ => cases ha

end Get

/-! ## Removals -/

theorem Removal.fst_closing (cs : List ConnId) (p : Pool) : (Removal.closing cs p).1 = p := by
  unfold Removal.closing
  split <;> rfl

theorem Order.grows_start (o : Order) (now : Instant) (p : Pool) :
    p.Grows [] (o.start now p).1 := by
  have hall (pick : Entry → Bool) : p.Grows [] (Removal.start pick p).1 := by
    rw [Removal.start, Removal.fst_closing]
    exact .removeAll p pick
  cases o with
  | host name => exact hall _
  | all => exact hall _
  | expired => exact hall _
  | one c =>
    rw [start, Removal.invalidate]
    split
    · rw [Removal.fst_closing]
      exact .remove p c
    · exact .refl p

theorem Removal.grows_resume (r : Removal) (a : Answer) (p : Pool) :
    p.Grows [] (r.resume a p).1 := by
  cases a with
  | closed c =>
    unfold Removal.resume
    dsimp only
    split
    · split
      · exact .noteClosed p c
      · exact .noteClosed p c
    · exact .refl p
  | _ => exact .refl p

/-- The connection that an event delivers. -/
def Event.delivered? : Event → Option ConnId
  | .answer _ a => a.delivered?
  | _ => none

end Pool

/-! ## Traffic -/

namespace Traffic

open Pool

variable {s t : Traffic} {now : Instant} {e : Event} {c : ConnId}
  {es fs : List (Instant × Event)} {settings : PoolSettings} {walk : Walk}

/-- **The connections that were delivered**: searches that waited for one were told of them. -/
def delivered (es : List (Instant × Event)) : List ConnId := es.filterMap fun x => x.2.delivered?

theorem delivered_append : delivered (es ++ fs) = delivered es ++ delivered fs :=
  List.filterMap_append

theorem pool_afterOrder (s : Traffic) (id : CallId) (x : Pool × Progress Removal Nat) :
    (s.afterOrder id x).1.pool = x.1 := by
  obtain ⟨p, r | n⟩ := x <;> rfl

theorem pool_afterClose (s : Traffic) (id : CallId) (x : Pool × Progress Removal Nat) :
    (s.afterClose id x).1.pool = x.1 := by
  obtain ⟨p, r | n⟩ := x <;> rfl

/-- **One event adds the record of the connection that it delivers**, and no other. -/
theorem grows_step {r : Traffic × Option Ending} (h : s.step now e = some r) :
    s.pool.Grows e.delivered?.toList r.1.pool := by
  cases e with
  | search id t =>
    rw [step, Option.ite_none_left_eq_some, Option.some.injEq] at h
    obtain ⟨-, rfl⟩ := h
    rw [pool_afterSearch]
    exact Get.grows_start id t now s.pool
  | order id o =>
    rw [step, Option.ite_none_left_eq_some, Option.some.injEq] at h
    obtain ⟨-, rfl⟩ := h
    rw [pool_afterOrder]
    exact o.grows_start now s.pool
  | answer id a =>
    obtain ⟨call, -, h⟩ := Option.bind_eq_some_iff.mp h
    rw [Option.ite_none_right_eq_some, Option.some.injEq] at h
    obtain ⟨hmay, rfl⟩ := h
    cases call with
    | search g =>
      rw [resume, pool_afterSearch]
      exact Get.grows_resume hmay now
    | removal r =>
      rw [resume, pool_afterClose]
      cases a with
      | closed n => exact r.grows_resume _ s.pool
      | _ => cases hmay
  | abandon id =>
    obtain ⟨call, -, rfl⟩ := Option.map_eq_some_iff.mp h
    cases call with
    | search g => exact ⟨rfl, (List.append_nil _).symm⟩
    | removal r => exact .refl s.pool
  | use n =>
    cases h
    exact .touch s.pool n now

/-- The records of a run are those of the connections that were delivered. -/
theorem grows_run (h : s.run es = some t) : s.pool.Grows (delivered es) t.pool := by
  induction es generalizing s with
  | nil =>
    cases h
    exact .refl _
  | cons x es ih =>
    obtain ⟨now, e⟩ := x
    obtain ⟨⟨u, o⟩, hstep, hrest⟩ := Option.bind_eq_some_iff.mp h
    have hcons : delivered ((now, e) :: es) = e.delivered?.toList ++ delivered es := by
      rw [← List.singleton_append, delivered_append, delivered, filterMap_singleton]
    rw [hcons]
    exact (grows_step hstep).trans (ih hrest)

theorem settings_run (h : (idle settings walk).run es = some s) : s.pool.settings = settings :=
  (grows_run h).settings

/-- **A connection has a record if and only if it was delivered.** -/
theorem mem_delivered_iff (h : (idle settings walk).run es = some s) :
    c ∈ delivered es ↔ ∃ e ∈ s.pool.entries, e.id = c := by
  rw [← mem_ids, (grows_run h).ids]
  rfl

end Traffic

end RemoteShell
