import Mathlib.Data.List.Induction
import RemoteShell.Proofs.Cells.Queues
import RemoteShell.Proofs.Pool.Soundness

/-!
# A pool at rest

The calls that hold the locks of a pool, or wait for them, are under way: a search leaves its lock
when it ends or is given up, and not before.  So when no call is under way every lock is free, and
a search that begins then gets its lock at once.

## Main definitions

* `Get.Settles`: what a turn of a search does to the queues at the locks

## Main results

* `Get.settles_resume`: a search that goes on
* `peopled_run`: only searches that are under way stand in the queues
* `admitted_of_no_calls`: a search that begins while no call is under way
-/

namespace RemoteShell

open Cells (User Peopled)

namespace Pool.Get

variable {g : Get} {p q : Pool} {a : Answer}

/-- **What a turn does to the queues**: a search that comes to a wait keeps its place, and one that
ends leaves. -/
def Settles (g : Get) (p : Pool) : Pool × Progress Get Result → Prop
  | (q, .waits g') => q.locks.cells = p.locks.cells ∧ g'.lock = g.lock ∧ g'.caller = g.caller
  | (q, .ends _) => q.locks.cells = (p.locks.release g.lock g.caller).cells

theorem settles_finish (hq : q.locks.cells = p.locks.cells) (r : Result) :
    g.Settles p (g.finish r q) := by
  cases r with
  | ok c => exact Cells.cells_release hq ..
  | error f => exact (Cells.cells_retire ..).trans (Cells.cells_release hq ..)

theorem Turn.settles {x : Pool × Progress Get Result} (h : g.Turn p x) : g.Settles p x := by
  cases h with
  | waits lands => exact ⟨congrArg Cells.cells lands.locks, rfl, rfl⟩
  | @ends r => exact settles_finish rfl r

theorem settles_goOn (hq : q.locks.cells = p.locks.cells) (phase : Phase) :
    g.Settles p (g.goOn phase q) := ⟨hq, rfl, rfl⟩

theorem locks_of_evict? {keep : Option Login} {e : Entry} (h : p.evict? keep = some (e, q)) :
    q.locks = p.locks := by
  obtain ⟨-, rfl⟩ := evict?_eq_some h
  rfl

theorem settles_makeRoom (hq : q.locks.cells = p.locks.cells) : g.Settles p (g.makeRoom q) := by
  unfold makeRoom
  split
  · next he =>
    refine settles_goOn ?_ _
    rwa [locks_of_evict? he]
  · exact settles_goOn hq _

theorem settles_trim (hq : q.locks.cells = p.locks.cells) (made : ConnId) :
    g.Settles p (g.trim made q) := by
  unfold trim
  split
  · next he =>
    refine settles_goOn ?_ _
    rwa [locks_of_evict? he]
  · exact settles_finish hq _

theorem settles_lookUp (now : Instant) (p : Pool) : g.Settles p (g.lookUp now p) := by
  unfold lookUp
  split
  · exact settles_makeRoom rfl
  · split
    · exact settles_goOn rfl _
    · exact settles_goOn rfl _

theorem cells_noteClosed (p : Pool) (c : ConnId) :
    (p.noteClosed c).locks.cells = p.locks.cells := by
  rw [noteClosed_eq]
  cases p.entry? c with
  | none => rfl
  | some e => exact Cells.cells_retire ..

/-- **A search goes on** with an answer that it may hear. -/
theorem settles_resume (ha : (Call.search g).mayHear p a = true) (now : Instant) :
    g.Settles p (g.resume a now p) := by
  obtain ⟨caller, t, lock, phase⟩ := g
  cases phase with
  | queued =>
    cases a with
    | admitted => exact settles_lookUp now p
    | _ => cases ha
  | probing c =>
    cases a with
    | alive b =>
      cases b with
      | true => exact settles_finish (q := p.noteReused c now) rfl (.ok c)
      | false => exact settles_goOn (q := p.remove c) rfl (.replacing c)
    | _ => cases ha
  | replacing c =>
    cases a with
    | closed n => exact settles_makeRoom (cells_noteClosed p c)
    | _ => cases ha
  | clearing c =>
    cases a with
    | closed n => exact settles_makeRoom (cells_noteClosed p c)
    | _ => cases ha
  | connecting =>
    cases a with
    | connected r =>
      cases r with
      | error f => exact settles_finish (q := p) rfl (.error f)
      | ok c => exact settles_trim (q := p.insert c t now) rfl c
    | _ => cases ha
  | trimming c made =>
    cases a with
    | closed n => exact settles_trim (cells_noteClosed p c) made
    | _ => cases ha

end Pool.Get

namespace Traffic

open Pool

variable {s t : Traffic} {now : Instant} {e : Event} {p : Pool} {id : CallId} {g : Get}
  {es : List (Instant × Event)} {settings : PoolSettings} {walk : Walk}

/-- No other call is the same user. -/
theorem Consistent.caller_ne {calls : Assoc CallId Call} {u : User Login} {closes : List ConnId}
    (h : Consistent p calls [u] closes) : ∀ v ∈ users calls, v.caller ≠ u.caller := by
  have hnodup := h.guarded.callers
  rw [List.map_append, List.nodup_append] at hnodup
  exact fun v hv => hnodup.2.2 _ (List.mem_map_of_mem hv) _ (List.mem_singleton_self _)

/-- A turn keeps users and queues together. -/
theorem peopled_afterSearch {closes : List ConnId} {x : Pool × Progress Get Get.Result}
    (hs : Consistent p (s.calls.erase id) [g.user] closes)
    (h : Peopled p.locks (users (s.calls.erase id) ++ [g.user])) (hx : g.Settles p x) :
    Peopled (s.afterSearch id x).1.pool.locks (users (s.afterSearch id x).1.calls) := by
  obtain ⟨q, g' | r⟩ := x
  · obtain ⟨hcells, hlock, hcaller⟩ := hx
    refine ((Cells.peopled_congr hcells).mpr h).mono fun u hu => ?_
    simp only [afterSearch, Assoc.put, users_append, users_singleton]
    rcases List.mem_append.mp hu with hu | hu
    · exact ⟨u, List.mem_append_left _ hu, rfl, rfl⟩
    · rw [List.mem_singleton.mp hu]
      exact ⟨g'.user, List.mem_append_right _ (List.mem_singleton_self _), hlock, hcaller⟩
  · exact (Cells.peopled_congr hx).mpr (h.release hs.caller_ne)

/-- A call that asks for its lock comes to stand in the queue. -/
theorem peopled_asking (hs : s.Sound) (h : Peopled s.pool.locks (users s.calls))
    (new : s.calls.get? id = none) (t : Target) :
    Peopled (Get.asking id t s.pool).2.locks
      (users (s.calls.erase id) ++ [(Get.asking id t s.pool).1.user]) := by
  have hcallers := (hs.asking new t).caller_ne
  rw [Assoc.erase_of_get?_eq_none new] at hcallers ⊢
  exact h.enter_openCell t.login () hcallers

/-- A call is taken out of the calls, and is a user besides them. -/
theorem peopled_out (hs : s.Sound) (h : Peopled s.pool.locks (users s.calls)) {c : Call}
    (call : s.calls.get? id = some c) :
    Peopled s.pool.locks (users (s.calls.erase id) ++ c.user?.toList) := by
  refine h.mono fun u hu => ⟨u, ?_, rfl, rfl⟩
  have hperm := users_perm (hs.keyed.perm_cons_erase call)
  rw [← List.singleton_append, users_append, users_singleton] at hperm
  exact (hperm.trans List.perm_append_comm).mem_iff.mp hu

/-- A removal is no user of a lock. -/
theorem peopled_removal (h : Peopled p.locks (users (s.calls.erase id))) (r : Removal)
    {P : Prop} [Decidable P] :
    Peopled p.locks (users (if P then s.calls.erase id else s.calls.put id (.removal r))) := by
  split
  · exact h
  · rwa [Assoc.put, users_append, users_singleton, Call.user?, Option.toList_none, List.append_nil]

/-- **One event keeps users and queues together.** -/
theorem peopled_step {o : Option Ending} (hs : s.Sound) (h : Peopled s.pool.locks (users s.calls))
    (hstep : s.step now e = some (t, o)) : Peopled t.pool.locks (users t.calls) := by
  have hdoes := hs.happens hstep
  generalize hr : (t, o) = r at hdoes
  obtain rfl : r.1 = t := hr ▸ rfl
  cases hdoes with
  | refuses => exact h
  | @queues id t new =>
    exact peopled_afterSearch (hs.asking new t) (peopled_asking hs h new t) ⟨rfl, rfl, rfl⟩
  | @begins id t x new turn does =>
    exact peopled_afterSearch (hs.asking new t) (peopled_asking hs h new t) does.settles
  | @orders id o cs q new takes once held locks counters =>
    rw [afterOrder_closing]
    refine peopled_removal ?_ _
    rwa [locks, Assoc.erase_of_get?_eq_none new]
  | @hears id a g p call may notes does =>
    exact peopled_afterSearch (hs.out call) (peopled_out hs h call) (Get.settles_resume may now)
  | @closes id c r call pending =>
    rw [afterClose_resume _ _ pending]
    refine peopled_removal ((Cells.peopled_congr (Get.cells_noteClosed ..)).mpr ?_) _
    simpa [Call.user?] using peopled_out hs h call
  | @abandons id c call =>
    have hout := peopled_out hs h call
    cases c with
    | search g => exact hout.release (hs.out call).caller_ne
    | removal r => rwa [Call.user?, Option.toList_none, List.append_nil] at hout
  | uses c => exact h

/-- **Only searches that are under way hold a lock or wait for one**, at every moment of a run. -/
theorem peopled_run (hrun : (idle settings walk).run es = some s) :
    Peopled s.pool.locks (users s.calls) := by
  induction es using List.reverseRecOn generalizing s with
  | nil =>
    cases hrun
    exact .empty
  | append_singleton es x ih =>
    obtain ⟨now, e⟩ := x
    obtain ⟨u, o, hu, hstep⟩ := run_snoc_eq_some.mp hrun
    exact peopled_step (.run (.idle settings walk) hu) (ih hu) hstep

/-- **A search that begins while no call is under way gets its lock at once.** -/
theorem admitted_of_no_calls (hrun : (idle settings walk).run es = some s) (hquiet : s.calls = [])
    (id : CallId) (t : Target) :
    (Get.asking id t s.pool).1.admitted (Get.asking id t s.pool).2 = true := by
  have hs : s.Sound := .run (.idle settings walk) hrun
  have hpeopled := peopled_run hrun
  have hguarded := hs.guarded
  rw [hquiet] at hpeopled hguarded
  exact hpeopled.admits_of_nobody hguarded t.login () id

end Traffic

end RemoteShell
