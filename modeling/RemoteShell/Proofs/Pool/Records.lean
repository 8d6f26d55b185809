import Mathlib.Data.List.Nodup
import RemoteShell.Pool.Basic

/-!
# Records of connections

What the changes of a pool do to its records.  A record is never dropped and never changes its
number or its login, and one that has left the pool does not come back: every change but `insert`
is told by the list of the connections that it takes out, and `insert` adds one record at the end
if nothing is pooled under its login.

## Main definitions

* `Pool.Knows`, `Pool.Gone`: a connection has a record, or has left the pool
* `Pool.Vacant`, `Pool.Only`: nothing, or nothing but a connection, is pooled under a login
* `Pool.Tidy`: numbers are of one record, and logins of one pooled record
* `Pool.TakesOut`: a change takes connections out of the pool, and nothing else matters

## Main results

* `TakesOut.remove`, `TakesOut.removeAll`, `TakesOut.evict`: what the changes take out
* `entries_insert`: a new connection is added to the records as they are
-/

namespace RemoteShell.Pool

variable {p q : Pool} {c : ConnId} {k : Login} {cs : List ConnId} {e : Entry}

/-- A connection has a record, under a login. -/
def Knows (p : Pool) (c : ConnId) (k : Login) : Prop := ∃ e ∈ p.entries, e.id = c ∧ e.key = k

/-- A connection has left the pool. -/
def Gone (p : Pool) (c : ConnId) : Prop := ∃ e ∈ p.entries, e.id = c ∧ e.pooled = false

/-- Nothing is pooled under a login. -/
def Vacant (p : Pool) (k : Login) : Prop := ∀ e ∈ p.entries, e.pooled → e.key ≠ k

/-- Nothing but a connection is pooled under a login. -/
def Only (p : Pool) (c : ConnId) (k : Login) : Prop :=
  ∀ e ∈ p.entries, e.pooled → e.key = k → e.id = c

/-- **The records are in order**: each has its own number, and a login has at most one in the
pool. -/
structure Tidy (p : Pool) : Prop where
  ids : (p.entries.map (·.id)).Nodup
  logins : ∀ e ∈ p.entries, ∀ f ∈ p.entries, e.pooled → f.pooled → e.key = f.key → e = f

/-! ## Looking at records -/

theorem mem_pooled : e ∈ p.pooled ↔ e ∈ p.entries ∧ e.pooled = true := List.mem_filter

theorem mem_of_lookup (h : p.lookup k = some e) : e ∈ p.entries ∧ e.pooled ∧ e.key = k := by
  obtain ⟨he, hp⟩ := mem_pooled.mp (List.mem_of_find?_eq_some h)
  exact ⟨he, hp, by simpa using List.find?_some h⟩

theorem lookup_eq_none_iff : p.lookup k = none ↔ p.Vacant k := by
  simp only [lookup, List.find?_eq_none, mem_pooled, decide_eq_true_eq, Vacant, and_imp, ne_eq]

theorem mem_picked {pick : Entry → Bool} :
    c ∈ p.picked pick ↔ ∃ e ∈ p.entries, (e.pooled = true ∧ pick e = true) ∧ e.id = c := by
  simp only [picked, List.mem_map, List.mem_filter, mem_pooled, and_assoc]

theorem entry?_eq_none_iff : p.entry? c = none ↔ ∀ e ∈ p.entries, e.id ≠ c := by
  simp [List.find?_eq_none, entry?]

namespace Tidy

protected theorem empty (s : PoolSettings) (w : Walk) : (Pool.empty s w).Tidy where
  ids := List.nodup_nil
  logins := by simp [Pool.empty]

theorem eq_of_id (h : p.Tidy) {f : Entry} (he : e ∈ p.entries) (hf : f ∈ p.entries)
    (hid : e.id = f.id) : e = f :=
  List.inj_on_of_nodup_map h.ids he hf hid

theorem nodup_pooled_ids (h : p.Tidy) : (p.pooled.map (·.id)).Nodup :=
  (List.filter_sublist.map _).nodup h.ids

theorem nodup_pooled (h : p.Tidy) : p.pooled.Nodup := List.Nodup.of_map _ h.nodup_pooled_ids

theorem entry?_eq_some_iff (h : p.Tidy) : p.entry? c = some e ↔ e ∈ p.entries ∧ e.id = c := by
  constructor
  · intro he
    exact ⟨List.mem_of_find?_eq_some he, by simpa using List.find?_some he⟩
  · rintro ⟨he, rfl⟩
    cases hf : p.entry? e.id with
    | none => exact absurd rfl (entry?_eq_none_iff.mp hf e he)
    | some f =>
      have hid : f.id = e.id := by simpa using List.find?_some hf
      rw [h.eq_of_id (List.mem_of_find?_eq_some hf) he hid]

theorem lookup_eq_some_iff (h : p.Tidy) :
    p.lookup k = some e ↔ e ∈ p.entries ∧ e.pooled ∧ e.key = k := by
  refine ⟨mem_of_lookup, ?_⟩
  rintro ⟨he, hp, hk⟩
  cases hf : p.lookup k with
  | none => exact absurd hk (lookup_eq_none_iff.mp hf e he hp)
  | some f =>
    obtain ⟨hf, hfp, hfk⟩ := mem_of_lookup hf
    rw [h.logins f hf e he hfp hp (hfk.trans hk.symm)]

/-- A connection whose record is in the pool has not left it. -/
theorem not_gone (h : p.Tidy) (he : e ∈ p.entries) (hp : e.pooled = true) : ¬ p.Gone e.id := by
  rintro ⟨f, hf, hid, hfp⟩
  rw [h.eq_of_id hf he hid, hp] at hfp
  cases hfp

theorem holds_iff (h : p.Tidy) : p.holds c ↔ ∃ e ∈ p.entries, e.id = c ∧ e.pooled = true := by
  simp only [holds, Option.any_eq_true, h.entry?_eq_some_iff, and_assoc]

/-- A connection that has a record is in the pool or has left it. -/
theorem holds_iff_not_gone (h : p.Tidy) (hk : p.Knows c k) : p.holds c ↔ ¬ p.Gone c := by
  obtain ⟨e, he, hid, -⟩ := hk
  rw [h.holds_iff]
  constructor
  · rintro ⟨f, hf, rfl, hfp⟩
    exact h.not_gone hf hfp
  · intro hgone
    refine ⟨e, he, hid, ?_⟩
    by_contra hp
    exact hgone ⟨e, he, hid, by simpa using hp⟩

end Tidy

/-! ## Taking out -/

/-- **A change takes connections out of the pool**: the records stay with their numbers and logins,
and those of the connections are in the pool no more. -/
structure TakesOut (p : Pool) (cs : List ConnId) (q : Pool) : Prop where
  change : ∃ f : Entry → Entry, q.entries = p.entries.map f ∧ ∀ e ∈ p.entries,
    (f e).id = e.id ∧ (f e).key = e.key ∧ ((f e).pooled = true ↔ e.pooled = true ∧ e.id ∉ cs)
  known : ∀ c ∈ cs, ∃ e ∈ p.entries, e.id = c

namespace TakesOut

variable (h : p.TakesOut cs q)

include h

theorem length_eq : q.entries.length = p.entries.length := by
  obtain ⟨f, hf, -⟩ := h.change
  rw [hf, List.length_map]

theorem map_id : q.entries.map (·.id) = p.entries.map (·.id) := by
  obtain ⟨f, hf, hkeep⟩ := h.change
  rw [hf, List.map_map]
  exact List.map_congr_left fun e he => (hkeep e he).1

theorem exists_of_mem (he : e ∈ q.entries) :
    ∃ e₀ ∈ p.entries, e.id = e₀.id ∧ e.key = e₀.key ∧
      (e.pooled = true ↔ e₀.pooled = true ∧ e₀.id ∉ cs) := by
  obtain ⟨f, hf, hkeep⟩ := h.change
  rw [hf] at he
  obtain ⟨e₀, he₀, rfl⟩ := List.mem_map.mp he
  exact ⟨e₀, he₀, hkeep e₀ he₀⟩

theorem exists_mem (he : e ∈ p.entries) :
    ∃ e' ∈ q.entries, e'.id = e.id ∧ e'.key = e.key ∧
      (e'.pooled = true ↔ e.pooled = true ∧ e.id ∉ cs) := by
  obtain ⟨f, hf, hkeep⟩ := h.change
  exact ⟨f e, hf ▸ List.mem_map_of_mem he, hkeep e he⟩

theorem tidy (ht : p.Tidy) : q.Tidy where
  ids := h.map_id ▸ ht.ids
  logins e he f hf hep hfp hk := by
    obtain ⟨f', hf', hkeep⟩ := h.change
    rw [hf'] at he hf
    obtain ⟨e₀, he₀, rfl⟩ := List.mem_map.mp he
    obtain ⟨f₀, hf₀, rfl⟩ := List.mem_map.mp hf
    have e₀p := ((hkeep e₀ he₀).2.2.mp hep).1
    have f₀p := ((hkeep f₀ hf₀).2.2.mp hfp).1
    rw [(hkeep e₀ he₀).2.1, (hkeep f₀ hf₀).2.1] at hk
    rw [ht.logins e₀ he₀ f₀ hf₀ e₀p f₀p hk]

theorem knows (hk : p.Knows c k) : q.Knows c k := by
  obtain ⟨e, he, rfl, rfl⟩ := hk
  obtain ⟨e', he', hid, hkey, -⟩ := h.exists_mem he
  exact ⟨e', he', hid, hkey⟩

theorem vacant (hv : p.Vacant k) : q.Vacant k := by
  intro e he hp
  obtain ⟨e₀, he₀, -, hkey, hpool⟩ := h.exists_of_mem he
  rw [hkey]
  exact hv e₀ he₀ (hpool.mp hp).1

theorem only (ho : p.Only c k) : q.Only c k := by
  intro e he hp hk
  obtain ⟨e₀, he₀, hid, hkey, hpool⟩ := h.exists_of_mem he
  rw [hid]
  exact ho e₀ he₀ (hpool.mp hp).1 (hkey ▸ hk)

/-- A login is vacant when the only connection that is pooled under it is taken out. -/
theorem vacant_of_only (ho : p.Only c k) (hc : c ∈ cs) : q.Vacant k := by
  intro e he hp hk
  obtain ⟨e₀, he₀, -, hkey, hpool⟩ := h.exists_of_mem he
  obtain ⟨hp₀, hcs⟩ := hpool.mp hp
  exact hcs (ho e₀ he₀ hp₀ (hkey ▸ hk) ▸ hc)

/-- What has left the pool afterwards had left it before, or is taken out. -/
theorem gone_iff : q.Gone c ↔ p.Gone c ∨ c ∈ cs := by
  constructor
  · rintro ⟨e, he, rfl, hp⟩
    obtain ⟨e₀, he₀, hid, -, hpool⟩ := h.exists_of_mem he
    rw [hid]
    by_cases hc : e₀.id ∈ cs
    · exact .inr hc
    · refine .inl ⟨e₀, he₀, rfl, ?_⟩
      by_contra hp₀
      exact absurd (hpool.mpr ⟨by simpa using hp₀, hc⟩) (by simp [hp])
  · intro hc
    have hknown : ∃ e ∈ p.entries, e.id = c ∧ (e.pooled = false ∨ c ∈ cs) := by
      rcases hc with ⟨e, he, hid, hp⟩ | hc
      · exact ⟨e, he, hid, .inl hp⟩
      · obtain ⟨e, he, hid⟩ := h.known c hc
        exact ⟨e, he, hid, .inr hc⟩
    obtain ⟨e, he, rfl, hor⟩ := hknown
    obtain ⟨e', he', hid, -, hpool⟩ := h.exists_mem he
    refine ⟨e', he', hid, ?_⟩
    by_contra hp
    obtain ⟨hp, hc⟩ := hpool.mp (by simpa using hp)
    rcases hor with h' | h'
    · simp [h'] at hp
    · exact hc h'

omit h

/-- A change that leaves the records as they are takes nothing out. -/
theorem of_entries_eq (h : q.entries = p.entries) : p.TakesOut [] q where
  change := ⟨id, by simp [h], by simp⟩
  known := by simp

/-- Note a use, and the records keep their places. -/
theorem touch (p : Pool) (c : ConnId) (now : Instant) : p.TakesOut [] (p.touch c now) where
  change := by
    refine ⟨_, rfl, fun e _ => ?_⟩
    dsimp only
    split <;> simp [Entry.touch]
  known := by simp

theorem noteReused (p : Pool) (c : ConnId) (now : Instant) : p.TakesOut [] (p.noteReused c now) :=
  ⟨(touch p c now).change, by simp⟩

theorem remove (hk : p.Knows c k) : p.TakesOut [c] (p.remove c) where
  change := by
    refine ⟨_, rfl, fun e _ => ?_⟩
    dsimp only
    split <;> simp [*]
  known := by
    obtain ⟨e, he, hid, -⟩ := hk
    simpa using ⟨e, he, hid⟩

theorem removeAll (ht : p.Tidy) (pick : Entry → Bool) :
    p.TakesOut (p.picked pick) (p.removeAll pick) where
  change := by
    refine ⟨_, rfl, fun e he => ?_⟩
    have hpicked : e.id ∈ p.picked pick ↔ e.pooled = true ∧ pick e = true := by
      rw [mem_picked]
      constructor
      · rintro ⟨f, hf, hpick, hid⟩
        rwa [← ht.eq_of_id hf he hid]
      · intro hpick
        exact ⟨e, he, hpick, rfl⟩
    rw [hpicked]
    split
    · next hpick => simp_all
    · next hpick => simp_all
  known c hc := by
    obtain ⟨e, he, -, hid⟩ := mem_picked.mp hc
    exact ⟨e, he, hid⟩

end TakesOut

/-- One connection is taken out by its number. -/
theorem removeAll_id (p : Pool) (c : ConnId) :
    p.removeAll (fun e => e.id = c) = p.remove c := by
  refine congrArg (fun es => { p with entries := es }) (List.map_congr_left ?_)
  rintro ⟨id, key, jumped, created, used, idle, pooled⟩ -
  cases pooled <;> simp

/-- Nothing is taken out where nothing is picked. -/
theorem removeAll_of_picked_eq_nil {pick : Entry → Bool} (h : p.picked pick = []) :
    p.removeAll pick = p := by
  have hnone : ∀ e ∈ p.entries,
      (if e.pooled && pick e then { e with pooled := false } else e) = e := by
    intro e he
    apply if_neg
    intro hpicked
    have hmem : e.id ∈ p.picked pick := mem_picked.mpr ⟨e, he, by simpa using hpicked, rfl⟩
    rw [h] at hmem
    exact List.not_mem_nil hmem
  rw [removeAll, List.map_congr_left hnone, List.map_id']

/-- The records that stay in the pool are those that are not picked, as they were. -/
theorem pooled_removeAll (p : Pool) (pick : Entry → Bool) :
    (p.removeAll pick).pooled = p.pooled.filter fun e => !pick e := by
  rw [pooled, removeAll, pooled]
  induction p.entries with
  | nil => rfl
  | cons e es ih =>
    rw [List.map_cons, List.filter_cons, List.filter_cons, ih]
    cases hp : e.pooled <;> cases hpick : pick e <;> simp [hp, hpick]

theorem mem_of_leastRecent {es : List Entry} (h : leastRecent es = some e) : e ∈ es := by
  induction es generalizing e with
  | nil => cases h
  | cons f es ih =>
    unfold leastRecent at h
    split at h
    · cases h
      exact List.mem_cons_self
    · next g hg =>
      split at h
      · cases h
        exact List.mem_cons_of_mem _ (ih hg)
      · cases h
        exact List.mem_cons_self

/-- A walk meets all records and no others. -/
@[simp] theorem Walk.mem_visits {w : Walk} {es : List Entry} : e ∈ w.visits es ↔ e ∈ es :=
  (w.perm es).mem_iff

/-- **What is taken out to make room** was pooled, and not under the login that is to be kept. -/
theorem evict?_eq_some {keep : Option Login} (h : p.evict? keep = some (e, q)) :
    (e ∈ p.entries ∧ e.pooled = true ∧ some e.key ≠ keep) ∧
      q = { p.remove e.id with
            counters := { p.counters with evicted := p.counters.evicted + 1 } } := by
  unfold evict? at h
  split at h
  · cases h
  · obtain ⟨v, hv, hq⟩ := Option.map_eq_some_iff.mp h
    obtain ⟨rfl, rfl⟩ := Prod.mk.inj hq
    obtain ⟨hpool, hkey⟩ := List.mem_filter.mp (mem_of_leastRecent hv)
    obtain ⟨he, hp⟩ := mem_pooled.mp (Walk.mem_visits.mp hpool)
    exact ⟨⟨he, hp, by simpa using hkey⟩, rfl⟩

theorem TakesOut.evict {keep : Option Login} (h : p.evict? keep = some (e, q)) :
    p.TakesOut [e.id] q := by
  obtain ⟨⟨he, -, -⟩, rfl⟩ := evict?_eq_some h
  have hr := TakesOut.remove ⟨e, he, rfl, rfl⟩
  exact ⟨hr.change, hr.known⟩

/-! ## Putting in -/

/-- The record of a new connection. -/
def opened (p : Pool) (c : ConnId) (t : Target) (now : Instant) : Entry where
  id := c
  key := t.login
  jumped := t.hop.isSome
  created := now
  lastUsedMillis := 0
  idleTimeout := p.settings.idleTimeout
  pooled := true

section Insert

variable {t : Target} {now : Instant}

/-- **A new connection under a vacant login overwrites nothing**: its record is added to the records
as they are. -/
theorem entries_insert (hv : p.Vacant t.login) :
    (p.insert c t now).entries = p.entries ++ [p.opened c t now] := by
  have hsame : ∀ e ∈ p.entries,
      (if e.key = t.login then { e with pooled := false } else e) = e := by
    intro e he
    split
    · next hk =>
      -- A record under the login is in the pool no more, so that nothing changes.
      have hp : e.pooled = false := by
        by_contra hp
        exact hv e he (by simpa using hp) hk
      cases e
      simp_all
    · rfl
  simp only [insert, opened, List.map_congr_left hsame, List.map_id']

theorem pooled_insert (hv : p.Vacant t.login) :
    (p.insert c t now).pooled = p.pooled ++ [p.opened c t now] := by
  rw [pooled, entries_insert hv, List.filter_append]
  rfl

theorem mem_entries_insert (hv : p.Vacant t.login) :
    e ∈ (p.insert c t now).entries ↔ e ∈ p.entries ∨ e = p.opened c t now := by
  rw [entries_insert hv, List.mem_append, List.mem_singleton]

theorem Tidy.insert (h : p.Tidy) (hv : p.Vacant t.login) (hc : p.entry? c = none) :
    (p.insert c t now).Tidy where
  ids := by
    rw [entries_insert hv, List.map_append, List.nodup_append]
    refine ⟨h.ids, by simp, ?_⟩
    intro i hi j hj
    obtain ⟨e, he, rfl⟩ := List.mem_map.mp hi
    rw [List.mem_singleton.mp hj]
    exact entry?_eq_none_iff.mp hc e he
  logins e he f hf hep hfp hk := by
    rw [mem_entries_insert hv] at he hf
    rcases he with he | rfl <;> rcases hf with hf | rfl
    · exact h.logins e he f hf hep hfp hk
    · exact absurd hk (hv e he hep)
    · exact absurd hk.symm (hv f hf hfp)
    · rfl

theorem knows_insert (hv : p.Vacant t.login) : (p.insert c t now).Knows c t.login :=
  ⟨_, (mem_entries_insert hv).mpr (.inr rfl), rfl, rfl⟩

theorem Knows.insert {d : ConnId} (hv : p.Vacant t.login) (h : p.Knows d k) :
    (p.insert c t now).Knows d k := by
  obtain ⟨e, he, hid, hk⟩ := h
  exact ⟨e, (mem_entries_insert hv).mpr (.inl he), hid, hk⟩

theorem Only.insert {d : ConnId} (hv : p.Vacant t.login) (hk : k ≠ t.login) (h : p.Only d k) :
    (p.insert c t now).Only d k := by
  intro e he hp he'
  rcases (mem_entries_insert hv).mp he with he | rfl
  · exact h e he hp he'
  · exact absurd he'.symm hk

theorem Vacant.insert (hv : p.Vacant t.login) (hk : k ≠ t.login) (h : p.Vacant k) :
    (p.insert c t now).Vacant k := by
  intro e he hp
  rcases (mem_entries_insert hv).mp he with he | rfl
  · exact h e he hp
  · exact hk.symm

theorem gone_insert_iff {d : ConnId} (hv : p.Vacant t.login) :
    (p.insert c t now).Gone d ↔ p.Gone d := by
  constructor
  · rintro ⟨e, he, hid, hp⟩
    rcases (mem_entries_insert hv).mp he with he | rfl
    · exact ⟨e, he, hid, hp⟩
    · cases hp
  · rintro ⟨e, he, hid, hp⟩
    exact ⟨e, (mem_entries_insert hv).mpr (.inl he), hid, hp⟩

end Insert

end RemoteShell.Pool
