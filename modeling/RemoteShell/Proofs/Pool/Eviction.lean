import RemoteShell.Proofs.Pool.Capacity
import RemoteShell.Proofs.Pool.Rest

/-!
# Which connections make room

A search that finds nothing under its login makes room for its new connection first: it takes out
the connection that was used longest ago, has it closed, and looks again, until one more connection
fits.  If no other call is under way nothing comes in between, so the search does just this, and
what it takes out can be told from the pool in which it begins.  Then it connects.  A new connection
joins those that stayed, and no further room is needed; if there is none, those that stayed are all.

## Main definitions

* `Pool.oldest`, `Pool.staying`: the connections that are taken out one after another, and the rest
* `Pool.Cleared`: connections were taken out to make room, and some of their closes are over
* `Traffic.Awaits`, `Traffic.Ended`, `Traffic.Alone`: what a search alone comes to

## Main results

* `lastUsed_le_of_mem_oldest`: what is taken out was used longest ago
* `alone_makeRoom`, `exists_makeRoom`: a search that makes room
* `evicts_least_recent`: a search that begins in a pool at rest
-/

namespace RemoteShell

namespace Pool

variable {p q r : Pool} {c : ConnId} {e v : Entry} {es vs ws : List Entry} {n m : Nat}
  {walk : Walk}

/-! ## The connections used longest ago -/

/-- **The connections that are taken out one after another**, each used longest ago of those that
are left, and the first of these that a walk meets. -/
def oldest (w : Walk) : Nat → List Entry → List Entry
  | 0, _ => []
  | n + 1, es =>
    match leastRecent (w.visits es) with
    | none => []
    | some v => v :: oldest w n (es.filter fun e => decide (e.id ≠ v.id))

/-- The connections that stay when others are taken out. -/
def staying (es vs : List Entry) : List Entry :=
  es.filter fun e => decide (e.id ∉ vs.map (·.id))

@[simp] theorem staying_nil (es : List Entry) : staying es [] = es := by simp [staying]

theorem staying_staying (es vs ws : List Entry) :
    staying (staying es vs) ws = staying es (vs ++ ws) := by
  simp only [staying, List.filter_filter]
  apply List.filter_congr
  intro e _
  simp [not_or, Bool.and_comm]

theorem staying_singleton (es : List Entry) (v : Entry) :
    staying es [v] = es.filter fun e => decide (e.id ≠ v.id) := by
  simp [staying]

theorem nodup_staying (h : (es.map (·.id)).Nodup) (vs : List Entry) :
    ((staying es vs).map (·.id)).Nodup := (List.filter_sublist.map _).nodup h

/-- One connection less stays when one is taken out. -/
theorem length_staying_singleton (h : (es.map (·.id)).Nodup) (hv : v ∈ es) :
    (staying es [v]).length + 1 = es.length := by
  rw [staying_singleton]
  induction es with
  | nil => cases hv
  | cons e es ih =>
    obtain ⟨hnot, hnodup⟩ := List.nodup_cons.mp h
    rcases List.mem_cons.mp hv with rfl | hv
    · have hall : es.filter (fun e => decide (e.id ≠ v.id)) = es :=
        List.filter_eq_self.mpr fun e he =>
          decide_eq_true fun hid => hnot (List.mem_map.mpr ⟨e, he, hid⟩)
      rw [List.filter_cons_of_neg (by simp), hall, List.length_cons]
    · have hne : e.id ≠ v.id := fun hid => hnot (List.mem_map.mpr ⟨v, hv, hid.symm⟩)
      rw [List.filter_cons_of_pos (by simpa using hne), List.length_cons, ih hnodup hv,
        List.length_cons]

/-- **The connection used longest ago** was last used no later than any other. -/
theorem lastUsed_le_of_leastRecent (h : leastRecent es = some v) (he : e ∈ es) :
    v.lastUsed ≤ e.lastUsed := by
  induction es generalizing v with
  | nil => cases he
  | cons f es ih =>
    unfold leastRecent at h
    split at h
    · next hnone =>
      cases h
      rw [leastRecent_eq_none hnone] at he
      exact List.mem_singleton.mp he ▸ Nat.le_refl _
    · next w hw =>
      split at h
      · next hlt =>
        cases h
        rcases List.mem_cons.mp he with rfl | he
        · exact Nat.le_of_lt hlt
        · exact ih hw he
      · next hlt =>
        cases h
        rcases List.mem_cons.mp he with rfl | he
        · exact Nat.le_refl _
        · exact Nat.le_trans (Nat.le_of_not_lt hlt) (ih hw he)

/-- A walk through some connections meets one that was used longest ago. -/
theorem exists_leastRecent (w : Walk) (h : es ≠ []) : ∃ v, leastRecent (w.visits es) = some v := by
  apply Option.ne_none_iff_exists'.mp
  intro hnone
  have hnil : (w.visits es).Perm [] := by rw [leastRecent_eq_none hnone]
  exact h ((w.perm es).symm.trans hnil).eq_nil

theorem oldest_succ (h : leastRecent (walk.visits es) = some v) (n : Nat) :
    oldest walk (n + 1) es = v :: oldest walk n (staying es [v]) := by
  rw [oldest, h, staying_singleton]

/-- As many are taken out as are asked for. -/
theorem length_oldest (h : (es.map (·.id)).Nodup) (hn : n ≤ es.length) :
    (oldest walk n es).length = n := by
  induction n generalizing es with
  | zero => rfl
  | succ n ih =>
    obtain ⟨v, hv⟩ := exists_leastRecent walk (List.ne_nil_of_length_pos (Nat.zero_lt_of_lt hn))
    have hmem : v ∈ es := Walk.mem_visits.mp (mem_of_leastRecent hv)
    have hlength := length_staying_singleton h hmem
    rw [oldest_succ hv, List.length_cons, ih (nodup_staying h _) (by omega)]

theorem oldest_subset (w : Walk) (n : Nat) (es : List Entry) : oldest w n es ⊆ es := by
  induction n generalizing es with
  | zero => exact List.nil_subset _
  | succ n ih =>
    cases hv : leastRecent (w.visits es) with
    | none =>
      rw [oldest, hv]
      exact List.nil_subset _
    | some v =>
      rw [oldest_succ hv]
      apply List.cons_subset.mpr
      constructor
      · exact Walk.mem_visits.mp (mem_of_leastRecent hv)
      · exact List.Subset.trans (ih _) (List.filter_subset_self _)

/-- None is taken out twice. -/
theorem nodup_oldest (w : Walk) (n : Nat) (es : List Entry) :
    ((oldest w n es).map (·.id)).Nodup := by
  induction n generalizing es with
  | zero => exact List.nodup_nil
  | succ n ih =>
    cases hv : leastRecent (w.visits es) with
    | none =>
      rw [oldest, hv]
      exact List.nodup_nil
    | some v =>
      rw [oldest_succ hv]
      refine List.nodup_cons.mpr ⟨fun hmem => ?_, ih _⟩
      obtain ⟨u, hu, hid⟩ := List.mem_map.mp hmem
      have hstays := oldest_subset _ _ _ hu
      rw [staying_singleton] at hstays
      exact absurd hid (by simpa using (List.mem_filter.mp hstays).2)

/-- **What is taken out was used longest ago**: no later than anything that stays. -/
theorem lastUsed_le_of_mem_oldest (hv : v ∈ oldest walk n es)
    (he : e ∈ staying es (oldest walk n es)) : v.lastUsed ≤ e.lastUsed := by
  induction n generalizing es with
  | zero => cases hv
  | succ n ih =>
    cases hw : leastRecent (walk.visits es) with
    | none =>
      rw [oldest, hw] at hv
      cases hv
    | some w =>
      rw [oldest_succ hw] at hv he
      rcases List.mem_cons.mp hv with rfl | hv
      · exact lastUsed_le_of_leastRecent hw (Walk.mem_visits.mpr (List.mem_of_mem_filter he))
      · rw [← List.singleton_append, ← staying_staying] at he
        exact ih hv he

/-! ## Making room -/

theorem pooled_remove (p : Pool) (c : ConnId) :
    (p.remove c).pooled = p.pooled.filter fun e => decide (e.id ≠ c) := by
  unfold remove modify pooled
  dsimp only
  induction p.entries with
  | nil => rfl
  | cons e es ih =>
    by_cases he : e.id = c
    · cases hp : e.pooled <;> simp [he, hp, ih]
    · cases hp : e.pooled <;> simp [he, hp, ih]

/-- **Connections were taken out to make room**, and so many of their closes are over. -/
structure Cleared (p : Pool) (vs : List Entry) (n : Nat) (q : Pool) : Prop where
  settings : q.settings = p.settings
  walk : q.walk = p.walk
  ids : q.ids = p.ids
  pooled : q.pooled = staying p.pooled vs
  counters : q.counters = { p.counters with
    evicted := p.counters.evicted + vs.length, closed := p.counters.closed + n }

namespace Cleared

theorem trans (h : p.Cleared vs n q) (h' : q.Cleared ws m r) : p.Cleared (vs ++ ws) (n + m) r where
  settings := h'.settings.trans h.settings
  walk := h'.walk.trans h.walk
  ids := h'.ids.trans h.ids
  pooled := by rw [h'.pooled, h.pooled, staying_staying]
  counters := by
    rw [h'.counters, h.counters, List.length_append, Nat.add_assoc, Nat.add_assoc]

protected theorem refl (p : Pool) : p.Cleared [] 0 p := ⟨rfl, rfl, rfl, (staying_nil _).symm, rfl⟩

theorem evict {keep : Option Login} (h : p.evict? keep = some (v, q)) : p.Cleared [v] 0 q := by
  have hgrows := Grows.evict h
  obtain ⟨-, rfl⟩ := evict?_eq_some h
  refine ⟨rfl, rfl, hgrows.ids.trans (List.append_nil _), ?_, rfl⟩
  rw [staying_singleton]
  exact pooled_remove p v.id

theorem noteClosed (p : Pool) (c : ConnId) : p.Cleared [] 1 (p.noteClosed c) := by
  rw [noteClosed_eq]
  exact ⟨rfl, rfl, rfl, (staying_nil _).symm, rfl⟩

end Cleared

/-- Nothing is taken out if no more connections are pooled than may stay. -/
theorem evict?_eq_none {keep : Option Login} (h : p.pooled.length ≤ p.limit keep) :
    p.evict? keep = none := if_pos h

/-- While a new connection does not fit, the one used longest ago is taken out. -/
theorem exists_evict? (hmax : 1 ≤ p.settings.maxConnections)
    (h : p.settings.maxConnections ≤ p.pooled.length) :
    ∃ v q, leastRecent (p.walk.visits p.pooled) = some v ∧ p.evict? none = some (v, q) := by
  have hne : p.pooled ≠ [] := List.ne_nil_of_length_pos (Nat.lt_of_lt_of_le hmax h)
  obtain ⟨v, hv⟩ := exists_leastRecent p.walk hne
  have hfull : ¬ p.pooled.length ≤ p.limit none := by
    have hlimit : p.limit none = p.settings.maxConnections - 1 := rfl
    omega
  have hall : ((p.walk.visits p.pooled).filter fun e => decide (some e.key ≠ none)) =
      p.walk.visits p.pooled :=
    List.filter_eq_self.mpr fun _ _ => rfl
  refine ⟨v, { p.remove v.id with
    counters := { p.counters with evicted := p.counters.evicted + 1 } }, hv, ?_⟩
  rw [evict?, if_neg hfull, hall, hv]
  rfl

end Pool

namespace Traffic

open Pool

variable {s u : Traffic} {p q : Pool} {id : CallId} {t : Target} {g : Get} {now : Instant}
  {v : Entry} {vs ws done rest : List Entry} {closes : List ConnId}
  {as : List (Instant × Answer)} {a : Answer} {n m : Nat} {es : List (Instant × Event)}
  {settings : PoolSettings} {walk : Walk} {r : Get.Result}

/-! ## A search alone -/

/-- Answers that a call hears, one after another, with nothing in between. -/
def hearing (id : CallId) (as : List (Instant × Answer)) : List (Instant × Event) :=
  as.map fun x => (x.1, .answer id x.2)

/-- The answers by which the closes of connections are over. -/
def closings (vs : List Entry) : List Answer := vs.map fun v => .closed v.id

/-- **A search that makes room waits**: some closes are over, and it waits for the next one, or for
a new connection if there is none. -/
def Awaits (s : Traffic) (id : CallId) (t : Target) (done rest : List Entry) (u : Traffic) : Prop :=
  ∃ g, u.calls = [(id, .search g)] ∧
    match rest with
    | [] => g.wait u.pool = .connect t s.pool.settings.connectTimeout ∧
        s.pool.Cleared done done.length u.pool ∧ u.closes = s.closes ++ done.map (·.id)
    | v :: _ => g.wait u.pool = .close [v.id] ∧ s.pool.Cleared (done ++ [v]) done.length u.pool ∧
        u.closes = s.closes ++ (done ++ [v]).map (·.id)

/-- **A search that made room has ended**: its new connection has joined those that stayed, if there
is one. -/
structure Ended (s : Traffic) (t : Target) (vs : List Entry) (now : Instant) (r : Get.Result)
    (u : Traffic) : Prop where
  calls : u.calls = []
  closes : u.closes = s.closes ++ vs.map (·.id)
  pooled : u.pool.pooled = staying s.pool.pooled vs ++
    (r.toOption.map fun c => s.pool.opened c t now).toList
  counters : u.pool.counters = { s.pool.counters with
    created := s.pool.counters.created + r.toOption.toList.length
    evicted := s.pool.counters.evicted + vs.length
    closed := s.pool.counters.closed + vs.length }

/-- **What a search alone comes to** that makes room by closing connections, when it has heard
answers. -/
inductive Alone (s : Traffic) (id : CallId) (t : Target) (vs : List Entry) :
    List (Instant × Answer) → Traffic → Prop
  | awaits {done rest : List Entry} {as : List (Instant × Answer)} {u : Traffic}
      (split : vs = done ++ rest) (heard : as.map (·.2) = closings done)
      (waits : s.Awaits id t done rest u) : Alone s id t vs as u
  | ended {as : List (Instant × Answer)} {now : Instant} {r : Get.Result} {u : Traffic}
      (heard : as.map (·.2) = closings vs) (ends : s.Ended t vs now r u) :
      Alone s id t vs (as ++ [(now, .connected r)]) u

/-- A pool with one search on it. -/
def oneSearch (id : CallId) (p : Pool) (g : Get) (closes : List ConnId) : Traffic :=
  ⟨p, [(id, .search g)], closes⟩

/-- A search that makes room has come to a wait. -/
def making (id : CallId) (p : Pool) (g : Get) (closes : List ConnId) : Traffic :=
  (afterSearch ⟨p, [], closes⟩ id (g.makeRoom p)).1

theorem step_oneSearch (id : CallId) (p : Pool) (g : Get) (closes : List ConnId) (now : Instant)
    (a : Answer) :
    (oneSearch id p g closes).step now (.answer id a) =
      if (Call.search g).mayHear p a then
        some (afterSearch ⟨p, [], closes⟩ id (g.resume a now p))
      else none := by
  have hcalls : (oneSearch id p g closes).calls.get? id = some (.search g) := by
    simp [oneSearch, Assoc.get?]
  have hafter (x : Pool × Progress Get Get.Result) :
      (oneSearch id p g closes).afterSearch id x = afterSearch ⟨p, [], closes⟩ id x := by
    obtain ⟨q, g' | r⟩ := x <;> simp [afterSearch, oneSearch, Assoc.put, Assoc.erase]
  simp only [step, hcalls, Option.bind_some, resume, hafter]
  rfl

/-- A new connection fits: the search connects. -/
theorem making_of_fits (hfits : p.pooled.length + 1 ≤ p.settings.maxConnections)
    (id : CallId) (g : Get) (closes : List ConnId) :
    making id p g closes = oneSearch id p { g with phase := .connecting } closes := by
  have hlimit : p.pooled.length ≤ p.limit none := Nat.le_sub_of_add_le hfits
  rw [making, Get.makeRoom, evict?_eq_none hlimit]
  simp [Get.goOn, afterSearch, oneSearch, Assoc.put, Assoc.erase, Get.closing]

/-- A new connection does not fit: the search has one closed. -/
theorem making_of_evict? (h : p.evict? none = some (v, q)) (id : CallId) (g : Get)
    (closes : List ConnId) :
    making id p g closes =
      oneSearch id q { g with phase := .clearing v.id } (closes ++ [v.id]) := by
  rw [making, Get.makeRoom, h]
  simp [Get.goOn, afterSearch, oneSearch, Assoc.put, Assoc.erase, Get.closing]

/-! ## What the search hears -/

/-- The close is over, and the search makes room again. -/
theorem run_making_cons (h : p.evict? none = some (v, q)) (id : CallId) (g : Get)
    (closes : List ConnId) (now : Instant) (es : List (Instant × Event)) :
    (making id p g closes).run ((now, .answer id (.closed v.id)) :: es) =
      (making id (q.noteClosed v.id) { g with phase := .clearing v.id } (closes ++ [v.id])).run
        es := by
  have hmay : (Call.search { g with phase := .clearing v.id }).mayHear q (.closed v.id) = true := by
    simp [Call.mayHear, Call.wait, Get.wait]
  rw [run, making_of_evict? h, step_oneSearch, if_pos hmay]
  rfl

/-- Nothing else is heard while a close is waited for. -/
theorem eq_closed_of_run (h : p.evict? none = some (v, q))
    (hrun : (making id p g closes).run ((now, .answer id a) :: es) = some u) :
    a = .closed v.id := by
  rw [run, making_of_evict? h, step_oneSearch] at hrun
  split at hrun
  · next hmay =>
    cases a with
    | closed n =>
      have hn : v.id = n := by simpa [Call.mayHear, Call.wait, Get.wait, eq_comm] using hmay
      rw [hn]
    | _ => cases hmay
  · cases hrun

/-- Nothing but a new connection, or that there is none, is heard while one is waited for. -/
theorem eq_connected_of_step {x : Traffic × Option Ending}
    (hstep : (oneSearch id p { g with phase := .connecting } closes).step now (.answer id a) =
      some x) :
    ∃ r, a = .connected r ∧ ∀ c, r = .ok c → p.entry? c = none := by
  rw [step_oneSearch, Option.ite_none_right_eq_some] at hstep
  obtain ⟨hmay, -⟩ := hstep
  cases a with
  | connected r =>
    refine ⟨r, rfl, fun c hc => ?_⟩
    subst hc
    exact Option.isNone_iff_eq_none.mp hmay
  | _ => cases hmay

/-- **The search ends** with what it hears of the new connection. -/
theorem ended_of_connected (hv : p.Vacant g.target.login)
    (hfits : p.pooled.length + 1 ≤ p.settings.maxConnections)
    (hr : ∀ c, r = .ok c → p.entry? c = none) (id : CallId) (closes : List ConnId) (now : Instant) :
    ∃ u, (oneSearch id p { g with phase := .connecting } closes).step now
        (.answer id (.connected r)) = some (u, some (.found r)) ∧
      Ended ⟨p, [], closes⟩ g.target [] now r u := by
  obtain ⟨caller, t, lock, phase⟩ := g
  let g : Get := ⟨caller, t, lock, .connecting⟩
  change ∃ u, (oneSearch id p g closes).step now (.answer id (.connected r)) = _ ∧ _
  rw [step_oneSearch]
  cases r with
  | error f =>
    refine ⟨_, rfl, rfl, (List.append_nil _).symm, ?_, rfl⟩
    change p.pooled = staying p.pooled [] ++ []
    rw [staying_nil, List.append_nil]
  | ok c =>
    have hmay : (Call.search g).mayHear p (.connected (.ok c)) = true :=
      Option.isNone_iff_eq_none.mpr (hr c rfl)
    have hpooled : (p.insert c t now).pooled = p.pooled ++ [p.opened c t now] := pooled_insert hv
    have hnone : (p.insert c t now).evict? (some t.login) = none := by
      refine evict?_eq_none ?_
      rw [hpooled, List.length_append]
      exact hfits
    have hends : g.resume (.connected (.ok c)) now p = g.finish (.ok c) (p.insert c t now) := by
      change g.trim c (p.insert c t now) = _
      have hlogin : g.target.login = t.login := rfl
      rw [Get.trim, hlogin, hnone]
    rw [if_pos hmay, hends]
    refine ⟨_, rfl, rfl, (List.append_nil _).symm, ?_, rfl⟩
    change (p.insert c t now).pooled = staying p.pooled [] ++ [p.opened c t now]
    rw [hpooled, staying_nil]

/-- When no call is under way nothing more is heard. -/
theorem eq_nil_of_run_hearing (h : s.calls = []) (hrun : s.run (hearing id as) = some u) :
    as = [] := by
  cases as with
  | nil => rfl
  | cons x as =>
    obtain ⟨y, hstep, -⟩ := Option.bind_eq_some_iff.mp hrun
    obtain ⟨c, hc, -⟩ := Option.bind_eq_some_iff.mp hstep
    rw [h] at hc
    cases hc

/-! ## Making room alone -/

section Earlier

/-! What a search does that has made room already is told from where it began. -/

variable {w : Traffic} (h : s.pool.Cleared ws ws.length w.pool)
  (hcloses : w.closes = s.closes ++ ws.map (·.id))

include h hcloses

theorem Awaits.earlier (hw : w.Awaits id t done rest u) : s.Awaits id t (ws ++ done) rest u := by
  obtain ⟨g, hcalls, hw⟩ := hw
  refine ⟨g, hcalls, ?_⟩
  cases rest with
  | nil =>
    obtain ⟨hwait, hcleared, hasked⟩ := hw
    refine ⟨h.settings ▸ hwait, ?_, ?_⟩
    · rw [List.length_append]
      exact h.trans hcleared
    · rw [hasked, hcloses, List.map_append, List.append_assoc]
  | cons v rest =>
    obtain ⟨hwait, hcleared, hasked⟩ := hw
    refine ⟨hwait, ?_, ?_⟩
    · rw [List.length_append, List.append_assoc]
      exact h.trans hcleared
    · rw [hasked, hcloses, List.append_assoc, ← List.map_append, List.append_assoc]

theorem Ended.earlier (he : w.Ended t vs now r u) : s.Ended t (ws ++ vs) now r u where
  calls := he.calls
  closes := by rw [he.closes, hcloses, List.map_append, List.append_assoc]
  pooled := by
    have hopened (c : ConnId) : w.pool.opened c t now = s.pool.opened c t now := by
      simp only [opened, h.settings]
    have hstaying := he.pooled
    simp only [h.pooled, staying_staying, hopened] at hstaying
    exact hstaying
  counters := by
    rw [he.counters, h.counters, List.length_append, Nat.add_assoc, Nat.add_assoc]

theorem Alone.earlier (bs : List (Instant × Answer)) (hbs : bs.map (·.2) = closings ws)
    (ha : w.Alone id t vs as u) :
    s.Alone id t (ws ++ vs) (bs ++ as) u := by
  have hheard (vs : List Entry) (as : List (Instant × Answer)) (has : as.map (·.2) = closings vs) :
      (bs ++ as).map (·.2) = closings (ws ++ vs) := by
    rw [List.map_append, hbs, has, closings, closings, closings, List.map_append]
  cases ha with
  | awaits split heard waits =>
    refine .awaits ?_ (hheard _ _ heard) (waits.earlier h hcloses)
    rw [split, List.append_assoc]
  | ended heard ends =>
    rw [← List.append_assoc]
    exact .ended (hheard _ _ heard) (ends.earlier h hcloses)

end Earlier

/-- **One connection makes room**, while a new one does not fit: it was used longest ago, and the
others stay. -/
theorem exists_clearing {k : Login} (hp : p.Tidy) (hv : p.Vacant k)
    (hmax : 1 ≤ p.settings.maxConnections) (hn : n + 1 = p.pooled.length + 1 -
      p.settings.maxConnections) :
    ∃ v q, p.evict? none = some (v, q) ∧ p.Cleared [v] 1 (q.noteClosed v.id) ∧
      (q.noteClosed v.id).Tidy ∧ (q.noteClosed v.id).Vacant k ∧
      n = (q.noteClosed v.id).pooled.length + 1 - (q.noteClosed v.id).settings.maxConnections ∧
      oldest p.walk (n + 1) p.pooled =
        v :: oldest (q.noteClosed v.id).walk n (q.noteClosed v.id).pooled := by
  obtain ⟨v, q, hleast, hevict⟩ := exists_evict? hmax (by omega)
  have hcleared : p.Cleared [v] 1 (q.noteClosed v.id) :=
    (Cleared.evict hevict).trans (.noteClosed q v.id)
  have htakes := TakesOut.evict hevict
  have hcloses := takesOut_noteClosed q v.id
  have hmem : v ∈ p.pooled := Walk.mem_visits.mp (mem_of_leastRecent hleast)
  have hlength := length_staying_singleton hp.nodup_pooled_ids hmem
  refine ⟨v, q, hevict, hcleared, hcloses.tidy (htakes.tidy hp), hcloses.vacant (htakes.vacant hv),
    ?_, ?_⟩
  · rw [hcleared.pooled, hcleared.settings]
    omega
  · rw [oldest_succ hleast, hcleared.pooled, hcleared.walk]

/-- **What a search does alone** to make room, whatever it hears. -/
theorem alone_makeRoom (hp : p.Tidy) (hv : p.Vacant g.target.login)
    (hmax : 1 ≤ p.settings.maxConnections)
    (hn : n = p.pooled.length + 1 - p.settings.maxConnections)
    (hrun : (making id p g closes).run (hearing id as) = some u) :
    Alone ⟨p, [], closes⟩ id g.target (oldest p.walk n p.pooled) as u := by
  induction n generalizing p g closes as with
  | zero =>
    have hfits : p.pooled.length + 1 ≤ p.settings.maxConnections := by omega
    rw [making_of_fits hfits] at hrun
    cases as with
    | nil =>
      cases hrun
      exact .awaits (List.append_nil []).symm rfl ⟨_, rfl, rfl, .refl p, (List.append_nil _).symm⟩
    | cons x as =>
      obtain ⟨now, a⟩ := x
      obtain ⟨⟨w, o⟩, hstep, hrun⟩ := Option.bind_eq_some_iff.mp hrun
      obtain ⟨r, rfl, hr⟩ := eq_connected_of_step hstep
      obtain ⟨w', hstep', hended⟩ := ended_of_connected hv hfits hr id closes now
      obtain ⟨rfl, -⟩ := Prod.mk.inj (Option.some.inj (hstep'.symm.trans hstep))
      obtain rfl := eq_nil_of_run_hearing hended.calls hrun
      cases hrun
      change Alone _ id g.target [] ([] ++ [(now, .connected r)]) _
      exact .ended rfl hended
  | succ n ih =>
    obtain ⟨v, q, hevict, hcleared, htidy, hvacant, hrest, holdest⟩ := exists_clearing hp hv hmax hn
    rw [holdest]
    cases as with
    | nil =>
      rw [making_of_evict? hevict] at hrun
      cases hrun
      exact .awaits (List.nil_append _).symm rfl ⟨_, rfl, rfl, .evict hevict, rfl⟩
    | cons x as =>
      obtain ⟨now, a⟩ := x
      obtain rfl := eq_closed_of_run hevict hrun
      rw [hearing, List.map_cons, run_making_cons hevict] at hrun
      rw [← hcleared.settings] at hmax
      have halone := ih htidy hvacant hmax hrest hrun
      have hcloses : closes ++ [v.id] = closes ++ [v].map (·.id) := rfl
      exact halone.earlier (s := ⟨p, [], closes⟩) hcleared hcloses [(now, .closed v.id)] rfl

/-- **A search that makes room alone comes to its end**, when the closes are over that it asks for
and it hears of the new connection. -/
theorem exists_makeRoom (hp : p.Tidy) (hv : p.Vacant g.target.login)
    (hmax : 1 ≤ p.settings.maxConnections)
    (hn : n = p.pooled.length + 1 - p.settings.maxConnections)
    (has : as.map (·.2) = closings (oldest p.walk n p.pooled)) (hr : ∀ c, r = .ok c → c ∉ p.ids) :
    ∃ w u, (making id p g closes).run (hearing id as) = some w ∧
      w.step now (.answer id (.connected r)) = some (u, some (.found r)) := by
  induction n generalizing p g closes as with
  | zero =>
    have hfits : p.pooled.length + 1 ≤ p.settings.maxConnections := by omega
    obtain rfl : as = [] := List.map_eq_nil_iff.mp has
    have hnew : ∀ c, r = .ok c → p.entry? c = none := fun c hc =>
      entry?_eq_none_iff.mpr fun e he hid => hr c hc (mem_ids.mpr ⟨e, he, hid⟩)
    obtain ⟨u, hstep, -⟩ := ended_of_connected hv hfits hnew id closes now
    rw [making_of_fits hfits]
    exact ⟨_, u, rfl, hstep⟩
  | succ n ih =>
    obtain ⟨v, q, hevict, hcleared, htidy, hvacant, hrest, holdest⟩ := exists_clearing hp hv hmax hn
    rw [holdest] at has
    obtain ⟨⟨now', a⟩, as', rfl, ha, htail⟩ := List.map_eq_cons_iff.mp has
    obtain rfl : a = .closed v.id := ha
    rw [hearing, List.map_cons, run_making_cons hevict]
    rw [← hcleared.settings] at hmax
    rw [← hcleared.ids] at hr
    exact ih htidy hvacant hmax hrest htail hr

/-! ## A search in a pool at rest -/

/-- A search that begins in a pool at rest, under whose login nothing is pooled, makes room. -/
theorem step_search_of_no_calls (hrun : (idle settings walk).run es = some s)
    (hquiet : s.calls = []) (ht : t.validate = .ok ()) (hk : s.pool.lookup t.login = none)
    (id : CallId) (now : Instant) :
    s.step now (.search id t) =
      some (making id (Get.asking id t s.pool).2 (Get.asking id t s.pool).1 s.closes, none) := by
  have hlock := admitted_of_no_calls hrun hquiet id t
  have hlook : (Get.asking id t s.pool).2.lookup t.login = none := hk
  have hstart : Get.start id t now s.pool =
      (Get.asking id t s.pool).1.makeRoom (Get.asking id t s.pool).2 := by
    unfold Get.start
    rw [ht]
    dsimp only [Get.asking] at hlock hlook ⊢
    rw [if_pos hlock, Get.lookUp, hlook]
  have hnew : s.calls.has id = false := by
    rw [hquiet]
    rfl
  rw [step, hnew, if_neg Bool.false_ne_true, hstart, making]
  have hwaits (p : Pool) (g : Get) : (s.afterSearch id (g.makeRoom p)) =
      ((afterSearch ⟨p, [], s.closes⟩ id (g.makeRoom p)).1, none) := by
    unfold Get.makeRoom
    split <;> simp [Get.goOn, afterSearch, hquiet]
  rw [hwaits]

/-- **What makes room is what was used longest ago.**  In every pool that a run has brought about
and in which no call is under way, let a search for a target begin under whose login nothing is
pooled.  There are connections, one less than there are with the new one above those that are
allowed, and none of them used later than any that stays; and whatever the search hears, it has them
closed one after another, each once, then connects, and does nothing else.  When the closes are over
and it hears of the new connection it ends: those that stay are as they were, and the new connection
is pooled with them, if there is one. -/
theorem evicts_least_recent (hrun : (idle settings walk).run es = some s) (hquiet : s.calls = [])
    (hmax : 1 ≤ settings.maxConnections) (ht : t.validate = .ok ())
    (hk : s.pool.lookup t.login = none) :
    ∃ vs, vs.length = s.pool.pooled.length + 1 - settings.maxConnections ∧
      (vs.map (·.id)).Nodup ∧ vs ⊆ s.pool.pooled ∧ (∀ v ∈ vs, v.id ∉ s.closes) ∧
      (∀ v ∈ vs, ∀ e ∈ staying s.pool.pooled vs, v.lastUsed ≤ e.lastUsed) ∧
      ∀ id now,
        (∀ as u, s.run ((now, .search id t) :: hearing id as) = some u → s.Alone id t vs as u) ∧
        ∀ as now' r, as.map (·.2) = closings vs → (∀ c, r = .ok c → c ∉ s.pool.ids) →
          ∃ w u, s.run ((now, .search id t) :: hearing id as) = some w ∧
            w.step now' (.answer id (.connected r)) = some (u, some (.found r)) := by
  have hs : s.Sound := .run (.idle settings walk) hrun
  have hsettings := settings_run hrun
  subst hsettings
  have hids : (s.pool.pooled.map (·.id)).Nodup := (List.filter_sublist.map _).nodup hs.tidy.ids
  have hvacant : s.pool.Vacant t.login := lookup_eq_none_iff.mp hk
  have htidy (id : CallId) : (Get.asking id t s.pool).2.Tidy := ⟨hs.tidy.ids, hs.tidy.logins⟩
  have hroom (id : CallId) :
      (Get.asking id t s.pool).2.Vacant (Get.asking id t s.pool).1.target.login := hvacant
  refine ⟨oldest s.pool.walk (s.pool.pooled.length + 1 - s.pool.settings.maxConnections)
    s.pool.pooled, length_oldest hids (by omega), nodup_oldest .., oldest_subset ..,
    fun v hv hclosed => ?_, fun v hv e he => lastUsed_le_of_mem_oldest hv he,
    fun id now => ⟨fun as u h => ?_, ?_⟩⟩
  · obtain ⟨hmem, hp⟩ := mem_pooled.mp (oldest_subset _ _ _ hv)
    exact hs.tidy.not_gone hmem hp ((hs.closes v.id).mp hclosed)
  · rw [run, step_search_of_no_calls hrun hquiet ht hk] at h
    have halone := alone_makeRoom (htidy id) (hroom id) hmax rfl h
    -- The lock is none of the records' business.
    have hlock : s.pool.Cleared [] 0 (Get.asking id t s.pool).2 :=
      ⟨rfl, rfl, rfl, (staying_nil _).symm, rfl⟩
    exact halone.earlier hlock (List.append_nil _).symm [] rfl
  · intro as now' r has hr
    rw [run, step_search_of_no_calls hrun hquiet ht hk]
    exact exists_makeRoom (htidy id) (hroom id) hmax rfl has hr

/-- Two connections fill a pool, and the first of them is used once more. -/
def bothUsed : List (Instant × Event) :=
  [(.start, .search 0 ⟨"a", 22, some "u", none, none⟩), (.start, .answer 0 (.connected (.ok 0))),
    (.start, .search 1 ⟨"b", 22, some "u", none, none⟩), (.start, .answer 1 (.connected (.ok 1))),
    (⟨5000000⟩, .use 0)]

/-- A third connection has room when one of the two was closed, and the search for it does nothing
but have this one closed and connect. -/
theorem evicts_of_bothUsed :
    ∃ s vs, (idle ⟨2, .ofSecs 300, .ofSecs 30⟩).run bothUsed = some s ∧ vs.length = 1 ∧
      (∀ v ∈ vs, ∀ e ∈ staying s.pool.pooled vs, v.lastUsed ≤ e.lastUsed) ∧
      ∀ as u, s.run ((⟨6000000⟩, .search 2 ⟨"c", 22, some "u", none, none⟩) :: hearing 2 as) =
        some u → s.Alone 2 ⟨"c", 22, some "u", none, none⟩ vs as u := by
  obtain ⟨s, hs, hquiet, hlookup, hlength⟩ :
      ∃ s, (idle ⟨2, .ofSecs 300, .ofSecs 30⟩).run bothUsed = some s ∧ s.calls = [] ∧
        s.pool.lookup ⟨"u", "c", 22⟩ = none ∧ s.pool.pooled.length = 2 :=
    ⟨_, rfl, rfl, rfl, rfl⟩
  obtain ⟨vs, hvs, -, -, -, holdest, halone⟩ :=
    evicts_least_recent (t := ⟨"c", 22, some "u", none, none⟩) hs hquiet (by decide) rfl hlookup
  rw [hlength] at hvs
  exact ⟨s, vs, hs, hvs, holdest, fun as u => (halone 2 ⟨6000000⟩).1 as u⟩

end Traffic

end RemoteShell
