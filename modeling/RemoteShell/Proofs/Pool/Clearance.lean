import RemoteShell.Proofs.Execution.Traffic
import RemoteShell.Proofs.Pool.Overview
import RemoteShell.Proofs.Pool.Soundness

/-!
# Orders that nothing overlaps

An order picks some of the pooled connections by their records: those to a host, all of them, those
that have been idle for too long, or a single one.  When no other call goes on before it ends, the
order takes out exactly these and has each of them closed once, whatever the order in which the
closes are over, and ends with their number.  Everything else stays: the other records, the counters
but for the closes, the calls that wait, and all of the service around the pool.

## Main definitions

* `Traffic.closedAt`: closes are over one after another
* `Traffic.Concludes`: a run ends a call with its last event

## Main results

* `Traffic.concludes_closedAt`: a removal ends when the last of its closes is over
* `Hub.Traffic.run_closedAt`: nothing but the pool of a service sees a removal
-/

namespace RemoteShell

namespace Pool

/-- Closes that are over count as closes, and the records stay as they are. -/
theorem foldl_noteClosed (cs : List ConnId) (p : Pool) :
    (cs.foldl noteClosed p).entries = p.entries ∧
      (cs.foldl noteClosed p).counters =
        { p.counters with closed := p.counters.closed + cs.length } := by
  induction cs generalizing p with
  | nil => exact ⟨rfl, rfl⟩
  | cons c cs ih =>
    obtain ⟨hentries, hcounters⟩ := ih (p.noteClosed c)
    rw [List.foldl_cons, hentries, hcounters, noteClosed_eq]
    refine ⟨rfl, ?_⟩
    rw [List.length_cons, Nat.add_right_comm, Nat.add_assoc]

end Pool

namespace Traffic

open Pool

variable {s t : Traffic} {id : CallId} {cs : List ConnId} {n : Nat} {es : List (Instant × Event)}
  {now : Instant} {e : Event} {x : Ending}

/-- **Closes are over one after another**, and a call hears so. -/
def closedAt (id : CallId) (l : List (Instant × ConnId)) : List (Instant × Event) :=
  l.map fun y => (y.1, .answer id (.closed y.2))

/-- **A run ends a call with its last event.** -/
def Concludes (s : Traffic) (es : List (Instant × Event)) (x : Ending) (t : Traffic) : Prop :=
  ∃ before now e u, es = before ++ [(now, e)] ∧ s.run before = some u ∧
    u.step now e = some (t, some x)

theorem Concludes.of_step (h : s.step now e = some (t, some x)) : s.Concludes [(now, e)] x t :=
  ⟨[], now, e, s, rfl, rfl, h⟩

theorem Concludes.cons {u : Traffic} {o : Option Ending} (h : s.step now e = some (u, o))
    (hrest : u.Concludes es x t) : s.Concludes ((now, e) :: es) x t := by
  obtain ⟨before, now', e', v, rfl, hrun, hlast⟩ := hrest
  refine ⟨(now, e) :: before, now', e', v, rfl, ?_, hlast⟩
  rw [run, h]
  exact hrun

theorem step_closed {r : Removal} {c : ConnId} (hcall : s.calls.get? id = some (.removal r))
    (hc : c ∈ r.pending) (now : Instant) :
    s.step now (.answer id (.closed c)) =
      some (s.afterClose id (s.pool.noteClosed c,
        if r.pending.erase c = [] then .ends r.count
        else .waits { r with pending := r.pending.erase c })) := by
  have hmay : (Call.removal r).mayHear s.pool (.closed c) = true := by
    simpa [Call.mayHear, Call.wait, Removal.wait] using hc
  rw [step, hcall, Option.bind_some, if_pos hmay, resume, Removal.resume_closed hc]

/-- **A removal ends when the last of its closes is over**, in whatever order they are. -/
theorem concludes_closedAt {l : List (Instant × ConnId)}
    (hcall : s.calls.get? id = some (.removal ⟨cs, n⟩)) (hne : cs ≠ [])
    (hl : (l.map Prod.snd).Perm cs) :
    s.Concludes (closedAt id l) (.removed n)
      ⟨(l.map Prod.snd).foldl noteClosed s.pool, s.calls.erase id, s.closes⟩ := by
  induction l generalizing s cs with
  | nil => exact absurd hl.nil_eq.symm hne
  | cons y l ih =>
    obtain ⟨now, c⟩ := y
    obtain ⟨hc, hrest⟩ := List.cons_perm_iff_perm_erase.mp hl
    have hstep := step_closed hcall hc now
    by_cases hlast : cs.erase c = []
    · -- No close is left, so that the call ends.
      rw [hlast, List.perm_nil, List.map_eq_nil_iff] at hrest
      subst hrest
      rw [if_pos hlast] at hstep
      exact .of_step hstep
    · rw [if_neg hlast] at hstep
      apply Concludes.cons hstep
      have hnext := ih (s := ⟨s.pool.noteClosed c,
        s.calls.put id (.removal ⟨cs.erase c, n⟩), s.closes⟩) (Assoc.get?_put_self ..) hlast hrest
      rwa [Assoc.erase_put] at hnext

/-- **An order that nothing overlaps** takes out what it picks and ends when all of it is closed. -/
theorem concludes_order {l : List (Instant × ConnId)} (ht : s.pool.Tidy)
    (hnew : s.calls.get? id = none) (o : Order) (now : Instant)
    (hl : (l.map Prod.snd).Perm (s.pool.picked (o.picks now))) :
    s.Concludes ((now, .order id o) :: closedAt id l)
      (.removed (s.pool.picked (o.picks now)).length)
      ⟨(l.map Prod.snd).foldl noteClosed (s.pool.removeAll (o.picks now)), s.calls,
        s.closes ++ s.pool.picked (o.picks now)⟩ := by
  have hhas : s.calls.has id = false := by rw [Assoc.has, hnew]; rfl
  have hstep : s.step now (.order id o) = some (s.afterOrder id
      (Removal.closing (s.pool.picked (o.picks now)) (s.pool.removeAll (o.picks now)))) := by
    rw [step, hhas, if_neg Bool.false_ne_true, o.start_eq_picks ht, Removal.start]
  rw [Removal.closing] at hstep
  by_cases hnone : s.pool.picked (o.picks now) = []
  · -- Nothing is picked, and the order ends at once.
    rw [hnone, List.perm_nil, List.map_eq_nil_iff] at hl
    subst hl
    rw [hnone] at hstep ⊢
    rw [List.isEmpty_nil, if_pos rfl, afterOrder, Assoc.erase_of_get?_eq_none hnew] at hstep
    rw [List.append_nil]
    exact .of_step hstep
  · have hempty : (s.pool.picked (o.picks now)).isEmpty = false := by simpa using hnone
    rw [hempty, if_neg Bool.false_ne_true, afterOrder] at hstep
    apply Concludes.cons hstep
    have hrest := concludes_closedAt (s := ⟨s.pool.removeAll (o.picks now),
      s.calls.put id (.removal ⟨s.pool.picked (o.picks now),
        (s.pool.picked (o.picks now)).length⟩),
      s.closes ++ s.pool.picked (o.picks now)⟩) (Assoc.get?_put_self ..) hnone hl
    rwa [Assoc.erase_put, Assoc.erase_of_get?_eq_none hnew] at hrest

end Traffic

namespace Hub.Traffic

variable {s : Traffic} {id : CallId} {cs : List ConnId} {n : Nat} {l : List (Instant × ConnId)}

/-- Closes are over one after another, and a call on a service hears so. -/
def closedAt (id : CallId) (l : List (Instant × ConnId)) : List (Instant × Event) :=
  l.map fun y => (y.1, .answer id (.closed y.2))

theorem step_closed {r : Pool.Removal} {c : ConnId} (hcall : s.calls.get? id = some (.removal r))
    (hc : c ∈ r.pending) (now : Instant) :
    s.step now (.answer id (.closed c)) =
      some (s.afterRemoval id ({ s.hub with pool := s.hub.pool.noteClosed c },
        if r.pending.erase c = [] then .ends r.count
        else .waits { r with pending := r.pending.erase c })) := by
  have hmay : (Call.removal r).mayHear s.hub (.closed c) = true := by
    simpa [Call.mayHear, Pool.Call.mayHear, Pool.Call.wait, Pool.Removal.wait] using hc
  rw [step, hcall, Option.bind_some, if_pos hmay, resume, onPool, Pool.Removal.resume_closed hc]

/-- **Nothing but the pool of a service sees the closes** of a removal. -/
theorem run_closedAt (hcall : s.calls.get? id = some (.removal ⟨cs, n⟩)) (hne : cs ≠ [])
    (hl : (l.map Prod.snd).Perm cs) :
    s.run (closedAt id l) =
      some { s with
        hub := { s.hub with pool := (l.map Prod.snd).foldl Pool.noteClosed s.hub.pool }
        calls := s.calls.erase id } := by
  induction l generalizing s cs with
  | nil => exact absurd hl.nil_eq.symm hne
  | cons y l ih =>
    obtain ⟨now, c⟩ := y
    obtain ⟨hc, hrest⟩ := List.cons_perm_iff_perm_erase.mp hl
    have hstep := step_closed hcall hc now
    rw [closedAt, List.map_cons, run, hstep, Option.bind_some]
    by_cases hlast : cs.erase c = []
    · rw [hlast, List.perm_nil, List.map_eq_nil_iff] at hrest
      subst hrest
      rw [if_pos hlast]
      rfl
    · rw [if_neg hlast]
      have hnext := ih (s := s.afterRemoval id ({ s.hub with pool := s.hub.pool.noteClosed c },
        .waits ⟨cs.erase c, n⟩)) (Assoc.get?_put_self ..) hlast hrest
      rw [closedAt] at hnext
      rw [hnext, afterRemoval, Assoc.erase_put]
      rfl

/-- **Nothing but the pool of a service sees an order.** -/
theorem run_order (ht : s.hub.pool.Tidy) (hnew : s.calls.get? id = none) (o : Pool.Order)
    (now : Instant) (hl : (l.map Prod.snd).Perm (s.hub.pool.picked (o.picks now))) :
    s.run ((now, .order id o) :: closedAt id l) =
      some { s with hub := { s.hub with
        pool :=
          (l.map Prod.snd).foldl Pool.noteClosed (s.hub.pool.removeAll (o.picks now)) } } := by
  have hhas : s.calls.has id = false := by rw [Assoc.has, hnew]; rfl
  have hstep : s.step now (.order id o) = some (s.afterRemoval id (s.hub.onPool fun p =>
      Pool.Removal.closing (p.picked (o.picks now)) (p.removeAll (o.picks now)))) := by
    rw [step, hhas, if_neg Bool.false_ne_true, onPool, o.start_eq_picks ht]
    rfl
  rw [onPool, Pool.Removal.closing] at hstep
  rw [run, hstep, Option.bind_some]
  by_cases hnone : s.hub.pool.picked (o.picks now) = []
  · rw [hnone, List.perm_nil, List.map_eq_nil_iff] at hl
    subst hl
    rw [hnone, List.isEmpty_nil, if_pos rfl, afterRemoval, Assoc.erase_of_get?_eq_none hnew]
    rfl
  · have hempty : (s.hub.pool.picked (o.picks now)).isEmpty = false := by simpa using hnone
    rw [hempty, if_neg Bool.false_ne_true, afterRemoval,
      run_closedAt (Assoc.get?_put_self ..) hnone hl, Assoc.erase_put,
      Assoc.erase_of_get?_eq_none hnew]

end Hub.Traffic

namespace Traffic

open Pool

variable {settings : PoolSettings} {walk : Walk} {es : List (Instant × Event)} {s : Traffic}
  {id : CallId} {l : List (Instant × ConnId)}

/-- **An order that nothing overlaps is exact.**  In every pool that a run has brought about, let an
order be given, and let nothing happen until it ends but that the closes are over for which it
waits, in any order and at any instants.  It ends with the number of the connections that it picks;
these have left the pool, and each of them was closed once and never before.  The other records in
the pool are as they were, and so are the counters, but for the closes, and the calls that wait; a
service around the pool sees nothing of it, its circuits included.  The list and the statistics then
agree on what is left. -/
theorem order_exact (hrun : (idle settings walk).run es = some s) (hnew : s.calls.get? id = none)
    (o : Order) (now : Instant) (hl : (l.map Prod.snd).Perm (s.pool.picked (o.picks now))) :
    ∃ t, s.Concludes ((now, .order id o) :: closedAt id l)
        (.removed (s.pool.picked (o.picks now)).length) t ∧
      t.pool.pooled = s.pool.pooled.filter (fun e => !o.picks now e) ∧
      t.closes = s.closes ++ s.pool.picked (o.picks now) ∧
      (∀ c ∈ s.pool.picked (o.picks now), t.closes.count c = 1) ∧
      t.pool.counters = { s.pool.counters with
        closed := s.pool.counters.closed + (s.pool.picked (o.picks now)).length } ∧
      t.calls = s.calls ∧
      (∀ S : Hub.Traffic, S.hub.pool = s.pool → S.calls.get? id = none →
        S.run ((now, .order id o) :: Hub.Traffic.closedAt id l) =
          some { S with hub := { S.hub with pool := t.pool } }) ∧
      (s.pool.pooled.length < UInt64.size → t.pool.Overview) := by
  have hs : s.Sound := .run (.idle settings walk) hrun
  obtain ⟨hentries, hcounters⟩ :=
    foldl_noteClosed (l.map Prod.snd) (s.pool.removeAll (o.picks now))
  have hpooled : ((l.map Prod.snd).foldl noteClosed (s.pool.removeAll (o.picks now))).pooled =
      s.pool.pooled.filter fun e => !o.picks now e := by
    rw [pooled, hentries]
    exact pooled_removeAll s.pool (o.picks now)
  refine ⟨_, concludes_order hs.tidy hnew o now hl, hpooled, rfl, ?_, ?_, rfl, ?_, ?_⟩
  · intro c hc
    have hnever : c ∉ s.closes := by
      intro hclosed
      obtain ⟨e, he, ⟨hp, -⟩, rfl⟩ := mem_picked.mp hc
      exact hs.tidy.not_gone he hp ((hs.closes e.id).mp hclosed)
    rw [List.count_append, List.count_eq_zero_of_not_mem hnever,
      List.count_eq_one_of_mem (picked_nodup hs.tidy _) hc]
  · rw [hcounters, hl.length_eq]
    rfl
  · intro S hpool hidle
    have hrest := Hub.Traffic.run_order (hpool ▸ hs.tidy) hidle o now (hpool ▸ hl)
    rwa [hpool] at hrest
  · intro hsize
    have htidy : (s.pool.removeAll (o.picks now)).Tidy :=
      (TakesOut.removeAll hs.tidy (o.picks now)).tidy hs.tidy
    apply ((TakesOut.of_entries_eq hentries).tidy htidy).overview
    rw [hpooled]
    exact Nat.lt_of_le_of_lt (List.length_filter_le _ _) hsize

/-- Connections of two users to one host, on different ports, and a connection to another host. -/
def threeOpened : List (Instant × Event) :=
  [(.start, .search 0 ⟨"a", 22, some "u", none, none⟩), (.start, .answer 0 (.connected (.ok 0))),
    (.start, .search 1 ⟨"a", 2222, some "v", none, none⟩),
    (.start, .answer 1 (.connected (.ok 1))),
    (.start, .search 2 ⟨"b", 22, some "u", none, none⟩), (.start, .answer 2 (.connected (.ok 2)))]

/-- An order for a host takes out both of its connections and leaves the third. -/
theorem order_exact_of_threeOpened :
    ∃ s t, (idle ⟨5, .ofSecs 300, .ofSecs 30⟩).run threeOpened = some s ∧
      s.calls.get? 3 = none ∧
      ([1, 0] : List ConnId).Perm (s.pool.picked ((Order.host "a").picks ⟨9⟩)) ∧
      s.Concludes ((⟨9⟩, .order 3 (.host "a")) :: closedAt 3 [(⟨11⟩, 1), (⟨12⟩, 0)])
        (.removed 2) t ∧
      t.pool.pooled.map (·.id) = [2] ∧ t.pool.Overview := by
  obtain ⟨s, hs, hnew, hpicked, hsize, hrest⟩ :
      ∃ s, (idle ⟨5, .ofSecs 300, .ofSecs 30⟩).run threeOpened = some s ∧
        s.calls.get? 3 = none ∧ s.pool.picked ((Order.host "a").picks ⟨9⟩) = [0, 1] ∧
        s.pool.pooled.length = 3 ∧
        (s.pool.pooled.filter fun e => !(Order.host "a").picks ⟨9⟩ e).map (·.id) = [2] :=
    ⟨_, rfl, rfl, rfl, rfl, rfl⟩
  have hclosed : ([1, 0] : List ConnId).Perm (s.pool.picked ((Order.host "a").picks ⟨9⟩)) := by
    rw [hpicked]
    decide
  obtain ⟨t, hends, hpooled, -, -, -, -, -, hviews⟩ :=
    order_exact (l := [(⟨11⟩, 1), (⟨12⟩, 0)]) hs hnew (.host "a") ⟨9⟩ hclosed
  rw [hpicked] at hends
  refine ⟨s, t, hs, hnew, hclosed, hends, hpooled ▸ hrest, hviews ?_⟩
  rw [hsize]
  decide

end Traffic

end RemoteShell
