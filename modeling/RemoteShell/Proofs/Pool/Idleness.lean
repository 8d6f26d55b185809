import RemoteShell.Proofs.Pool.Departure

/-!
# What a pool knows of uses

The record of a connection keeps when it was opened and when it was last used.  A pool touches this
only when it is told of a use, and gets it right when a connection is opened: whatever else becomes
of a record, its dates stay.  So the record is dated by the uses that were noted, and the connection
counts as idle for too long when all of them are too long ago.

A use is kept in whole milliseconds after the opening, so that it may seem to be up to a millisecond
earlier than it was.

## Main definitions

* `Pool.Notes`: a change notes uses of some connections and opens others, and leaves all other dates
* `Entry.DatedBy`: the uses that a record goes back to
* `Get.HasFound`: a search asks a connection for a sign of life, or replaces it
* `Pool.Inspected`: a change takes a connection out if and only if it has been idle for too long

## Main results

* `Get.notes_start`, `Get.notes_resume`, `Order.notes_start`, `Removal.notes_resume`: what calls
  note
* `Entry.DatedBy.expired_iff`: what counts as idle for too long
* `Get.start_inspects`, `Get.resume_inspects`, `inspected_expired`: a search that has found a
  connection, and a sweep, take out what has been idle for too long
-/

namespace RemoteShell.Pool

/-! ## Dates of a record -/

namespace Entry

variable {e : Entry} {us : List Instant} {u now : Instant}

/-- An instant as a record keeps it: in whole milliseconds after the opening. -/
def noticed (e : Entry) (u : Instant) : Instant :=
  e.created.after (.ofMillis (u.since e.created).millis)

/-- **A record is dated by uses**: the last use is one of them, and none of them is later. -/
structure DatedBy (e : Entry) (us : List Instant) : Prop where
  last : ∃ u ∈ us, e.lastUsedMillis = (u.since e.created).millis
  earlier : ∀ u ∈ us, (u.since e.created).millis ≤ e.lastUsedMillis

/-- A use is noted. -/
theorem DatedBy.touch (h : e.DatedBy us) (now : Instant) : (e.touch now).DatedBy (now :: us) where
  last := by
    obtain ⟨u, hu, hlast⟩ := h.last
    rcases Nat.le_total e.lastUsedMillis (now.since e.created).millis with hle | hle
    · exact ⟨now, List.mem_cons_self, Nat.max_eq_right hle⟩
    · exact ⟨u, List.mem_cons_of_mem _ hu, (Nat.max_eq_left hle).trans hlast⟩
  earlier := by
    rintro u (_ | ⟨_, hu⟩)
    · exact Nat.le_max_right ..
    · exact Nat.le_trans (h.earlier u hu) (Nat.le_max_left ..)

/-- **A connection is idle for too long** if and only if all its uses are too long ago. -/
theorem DatedBy.expired_iff (h : e.DatedBy us) :
    e.expired now = true ↔ ∀ u ∈ us, e.idleTimeout < now.since (e.noticed u) := by
  have hlater {m n : Nat} (hmn : m ≤ n)
      (hn : e.idleTimeout < now.since (e.created.after (.ofMillis n))) :
      e.idleTimeout < now.since (e.created.after (.ofMillis m)) := by
    have hscale : m * Duration.perMilli ≤ n * Duration.perMilli := Nat.mul_le_mul_right _ hmn
    simp only [Duration.lt_def, Instant.since, Instant.after, Duration.ofMillis] at hn ⊢
    omega
  rw [expired, decide_eq_true_iff, idle, lastUsed]
  constructor
  · exact fun hold u hu => hlater (h.earlier u hu) hold
  · intro hold
    obtain ⟨u, hu, hlast⟩ := h.last
    rw [hlast]
    exact hold u hu

/-- The record apart from whether the connection is in the pool. -/
def dates (e : Entry) : Entry := { e with pooled := true }

theorem DatedBy.dates (h : e.DatedBy us) : e.dates.DatedBy us := ⟨h.last, h.earlier⟩

theorem DatedBy.of_dates (h : e.dates.DatedBy us) : e.DatedBy us := ⟨h.last, h.earlier⟩

/-- Note a use if the connection is one of those that are used. -/
def noted (cs : List ConnId) (now : Instant) (e : Entry) : Entry :=
  if e.id ∈ cs then e.touch now else e

theorem noted_id (e : Entry) (cs : List ConnId) (now : Instant) : (e.noted cs now).id = e.id := by
  unfold noted
  split <;> rfl

theorem noted_idleTimeout (e : Entry) (cs : List ConnId) (now : Instant) :
    (e.noted cs now).idleTimeout = e.idleTimeout := by
  unfold noted
  split <;> rfl

theorem noted_nil (now : Instant) (e : Entry) : e.noted [] now = e := rfl

/-- Two uses at the same instant are one. -/
theorem noted_noted (cs ds : List ConnId) (now : Instant) (e : Entry) :
    (e.noted cs now).noted ds now = e.noted (cs ++ ds) now := by
  unfold noted
  by_cases hc : e.id ∈ cs <;> by_cases hd : e.id ∈ ds <;> simp [hc, hd, touch]

end Entry

/-! ## Changes -/

variable {p q r : Pool} {c : ConnId} {cs cs' ds ds' : List ConnId} {now : Instant} {e : Entry}

/-- The dates of all records. -/
def dates (p : Pool) : List Entry := p.entries.map (·.dates)

/-- A record that has just been made. -/
structure Fresh (p : Pool) (now : Instant) (ds : List ConnId) (e : Entry) : Prop where
  created : e.created = now
  unused : e.lastUsedMillis = 0
  idleTimeout : e.idleTimeout = p.settings.idleTimeout
  opened : e.id ∈ ds

/-- A new record is dated by its opening. -/
theorem Fresh.datedBy (h : p.Fresh now ds e) : e.DatedBy [now] := by
  have hzero : (now.since e.created).millis = 0 := by
    simp [h.created, Duration.millis, Duration.zero]
  refine ⟨⟨now, List.mem_singleton_self now, ?_⟩, List.forall_mem_singleton.mpr ?_⟩
  · rw [h.unused, hzero]
  · rw [hzero]
    exact Nat.zero_le _

/-- **A change notes uses** of some connections, and opens others; all other dates stay. -/
structure Notes (p : Pool) (now : Instant) (cs ds : List ConnId) (q : Pool) : Prop where
  settings : q.settings = p.settings
  dates : ∃ new, q.dates = p.dates.map (·.noted cs now) ++ new ∧ ∀ e ∈ new, p.Fresh now ds e

namespace Notes

/-- A change that leaves the dates alone. -/
theorem of_dates_eq (hs : q.settings = p.settings) (hd : q.dates = p.dates) :
    p.Notes now [] [] q := by
  refine ⟨hs, [], ?_, List.forall_mem_nil _⟩
  rw [hd, List.append_nil]
  exact (List.map_id' _).symm

protected theorem refl (p : Pool) (now : Instant) : p.Notes now [] [] p := of_dates_eq rfl rfl

theorem trans (h : p.Notes now cs ds q) (h' : q.Notes now cs' ds' r) :
    p.Notes now (cs ++ cs') (ds ++ ds') r := by
  obtain ⟨new, hnew, hfresh⟩ := h.dates
  obtain ⟨new', hnew', hfresh'⟩ := h'.dates
  refine ⟨h'.settings.trans h.settings, new.map (·.noted cs' now) ++ new', ?_, ?_⟩
  · rw [hnew', hnew, List.map_append, List.map_map, List.append_assoc]
    congr 1
    exact List.map_congr_left fun e _ => e.noted_noted cs cs' now
  · intro e he
    rcases List.mem_append.mp he with he | he
    · -- A use in the moment of the opening is at no time after it.
      obtain ⟨e, hmem, rfl⟩ := List.mem_map.mp he
      obtain ⟨hcreated, hunused, htimeout, hopened⟩ := hfresh e hmem
      unfold Entry.noted
      split
      · refine ⟨hcreated, ?_, htimeout, List.mem_append_left _ hopened⟩
        simp [Entry.touch, hcreated, hunused, Duration.millis, Duration.zero]
      · exact ⟨hcreated, hunused, htimeout, List.mem_append_left _ hopened⟩
    · obtain ⟨hcreated, hunused, htimeout, hopened⟩ := hfresh' e he
      exact ⟨hcreated, hunused, htimeout.trans (congrArg _ h.settings),
        List.mem_append_right _ hopened⟩

theorem congr (h : p.Notes now cs ds q) (hcs : ∀ c, c ∈ cs ↔ c ∈ cs') : p.Notes now cs' ds q := by
  obtain ⟨new, hnew, hfresh⟩ := h.dates
  refine ⟨h.settings, new, ?_, hfresh⟩
  rw [hnew]
  congr 1
  exact List.map_congr_left fun e _ => by simp only [Entry.noted, hcs]

/-- A change of records that leaves their dates alone. -/
theorem of_map {f : Entry → Entry} (hs : q.settings = p.settings)
    (hq : q.entries = p.entries.map f) (hf : ∀ e, (f e).dates = e.dates) : p.Notes now [] [] q := by
  refine of_dates_eq hs ?_
  rw [Pool.dates, hq, List.map_map]
  exact List.map_congr_left fun e _ => hf e

theorem of_entries_eq (hs : q.settings = p.settings) (hq : q.entries = p.entries) :
    p.Notes now [] [] q := of_dates_eq hs (by rw [Pool.dates, hq, Pool.dates])

theorem touch (p : Pool) (c : ConnId) (now : Instant) : p.Notes now [c] [] (p.touch c now) := by
  refine ⟨rfl, [], ?_, List.forall_mem_nil _⟩
  simp only [Pool.dates, Pool.touch, Pool.modify, List.map_map, List.append_nil]
  refine List.map_congr_left fun e _ => ?_
  simp only [Function.comp, Entry.noted, Entry.dates, List.mem_singleton]
  split <;> rfl

theorem remove (p : Pool) (c : ConnId) : p.Notes now [] [] (p.remove c) := by
  refine of_map rfl rfl fun e => ?_
  split <;> rfl

theorem removeAll (p : Pool) (pick : Entry → Bool) : p.Notes now [] [] (p.removeAll pick) := by
  refine of_map rfl rfl fun e => ?_
  split <;> rfl

theorem evict {keep : Option Login} (h : p.evict? keep = some (e, q)) : p.Notes now [] [] q := by
  obtain ⟨-, rfl⟩ := evict?_eq_some h
  exact ⟨rfl, (remove p e.id).dates⟩

theorem noteClosed (p : Pool) (c : ConnId) : p.Notes now [] [] (p.noteClosed c) := by
  rw [noteClosed_eq]
  exact of_entries_eq rfl rfl

/-- A new connection has been used at no time after its opening. -/
theorem insert (p : Pool) (c : ConnId) (t : Target) (now : Instant) :
    p.Notes now [] [c] (p.insert c t now) := by
  refine ⟨rfl, [p.opened c t now], ?_, ?_⟩
  · simp only [Pool.dates, Pool.insert, List.map_append, List.map_map]
    congr 1
    refine List.map_congr_left fun e _ => ?_
    simp only [Function.comp, Entry.noted_nil]
    split <;> rfl
  · intro e he
    obtain rfl := List.mem_singleton.mp he
    exact ⟨rfl, rfl, rfl, List.mem_singleton_self c⟩

/-- What becomes of a record. -/
theorem record (h : p.Notes now cs ds q) (he : e ∈ q.entries) :
    (∃ e₀ ∈ p.entries, e.dates = e₀.dates.noted cs now) ∨ p.Fresh now ds e.dates := by
  obtain ⟨new, hnew, hfresh⟩ := h.dates
  have hmem : e.dates ∈ q.dates := List.mem_map_of_mem he
  rw [hnew] at hmem
  rcases List.mem_append.mp hmem with hmem | hmem
  · obtain ⟨d, hd, hdates⟩ := List.mem_map.mp hmem
    obtain ⟨e₀, he₀, rfl⟩ := List.mem_map.mp hd
    exact .inl ⟨e₀, he₀, hdates.symm⟩
  · exact .inr (hfresh _ hmem)

end Notes

/-! ## Calls -/

namespace Get

variable {g g' : Get} {a : Answer}

theorem notes_finish (g : Get) (r : Result) (p : Pool) : p.Notes now [] [] (g.finish r p).1 := by
  cases r with
  | ok c => exact .of_entries_eq rfl rfl
  | error f => exact .of_entries_eq rfl rfl

theorem notes_makeRoom (g : Get) (p : Pool) : p.Notes now [] [] (g.makeRoom p).1 := by
  unfold makeRoom
  split
  · next hq => exact .evict hq
  · exact .refl p now

theorem notes_trim (g : Get) (made : ConnId) (p : Pool) :
    p.Notes now [] [] (g.trim made p).1 := by
  unfold trim
  split
  · next hq => exact .evict hq
  · exact g.notes_finish _ p

theorem notes_lookUp (g : Get) (now : Instant) (p : Pool) :
    p.Notes now [] [] (g.lookUp now p).1 := by
  unfold lookUp
  split
  · exact g.notes_makeRoom p
  · split
    · exact .remove p _
    · exact .refl p now

/-- **A search that begins** notes no use. -/
theorem notes_start (caller : CallId) (t : Target) (now : Instant) (p : Pool) :
    p.Notes now [] [] (Get.start caller t now p).1 := by
  unfold Get.start
  split
  · exact .refl p now
  · dsimp only
    have hasked : p.Notes now [] [] (asking caller t p).2 := .of_entries_eq rfl rfl
    split
    · exact hasked.trans (notes_lookUp (asking caller t p).1 now _)
    · exact hasked

/-- **A search that goes on** notes the use of a connection only when it ends with it. -/
theorem notes_resume (ha : (Call.search g).mayHear p a = true) (now : Instant) :
    ∃ cs, p.Notes now cs a.delivered?.toList (g.resume a now p).1 ∧
      ∀ c ∈ cs, (g.resume a now p).2 = .ends (.ok c) := by
  obtain ⟨caller, t, lock, phase⟩ := g
  cases phase with
  | queued =>
    cases a with
    | admitted => exact ⟨[], notes_lookUp _ now p, List.forall_mem_nil _⟩
    | _ => cases ha
  | probing c =>
    cases a with
    | alive b =>
      cases b with
      | true =>
        have hreused : p.Notes now [c] [] (p.noteReused c now) :=
          (Notes.touch p c now).trans (.of_entries_eq rfl rfl)
        exact ⟨[c], hreused.trans (notes_finish ..), List.forall_mem_singleton.mpr rfl⟩
      | false => exact ⟨[], .remove p c, List.forall_mem_nil _⟩
    | _ => cases ha
  | replacing c =>
    cases a with
    | closed n =>
      exact ⟨[], (Notes.noteClosed p c).trans (notes_makeRoom ..), List.forall_mem_nil _⟩
    | _ => cases ha
  | clearing c =>
    cases a with
    | closed n =>
      exact ⟨[], (Notes.noteClosed p c).trans (notes_makeRoom ..), List.forall_mem_nil _⟩
    | _ => cases ha
  | connecting =>
    cases a with
    | connected r =>
      cases r with
      | error f => exact ⟨[], notes_finish .., List.forall_mem_nil _⟩
      | ok c => exact ⟨[], (Notes.insert p c t now).trans (notes_trim ..), List.forall_mem_nil _⟩
    | _ => cases ha
  | trimming c made =>
    cases a with
    | closed n => exact ⟨[], (Notes.noteClosed p c).trans (notes_trim ..), List.forall_mem_nil _⟩
    | _ => cases ha

end Get

/-- **An order** notes no use. -/
theorem Order.notes_start (o : Order) (now : Instant) (p : Pool) :
    p.Notes now [] [] (o.start now p).1 := by
  have hall (pick : Entry → Bool) : p.Notes now [] [] (Removal.start pick p).1 := by
    unfold Removal.start Removal.closing
    split
    · exact .removeAll p pick
    · exact .removeAll p pick
  cases o with
  | host name => exact hall _
  | all => exact hall _
  | expired => exact hall _
  | one c =>
    dsimp only [Order.start]
    unfold Removal.invalidate
    split
    · exact .remove p c
    · exact .refl p now

/-- A removal that goes on notes no use. -/
theorem Removal.notes_resume (r : Removal) (a : Answer) (now : Instant) (p : Pool) :
    p.Notes now [] [] (r.resume a p).1 := by
  unfold Removal.resume
  split
  · split
    · dsimp only
      split
      · exact .noteClosed p _
      · exact .noteClosed p _
    · exact .refl p now
  · exact .refl p now

/-- A search that is told of a new connection is told of one without a record. -/
theorem Get.new_of_mayHear {g : Get} (ha : (Call.search g).mayHear p (.connected (.ok c)) = true) :
    c ∉ p.ids := by
  obtain ⟨caller, t, lock, phase⟩ := g
  have hnew : p.entry? c = none := by
    cases phase <;> simp_all [Call.mayHear, Call.wait, Get.wait]
  intro hids
  obtain ⟨e, he, hid⟩ := mem_ids.mp hids
  exact entry?_eq_none_iff.mp hnew e he hid

/-! ## Inspections -/

/-- **A connection is inspected** by a change: if it is in the pool, the change takes it out if and
only if it has been idle for too long. -/
def Inspected (p : Pool) (now : Instant) (c : ConnId) (q : Pool) : Prop :=
  ∀ e ∈ p.pooled, e.id = c → (q.holds c = false ↔ e.expired now = true)

/-- A change of the pool that takes connections out inspects those that it takes out just when they
have been idle for too long. -/
theorem TakesOut.inspected (h : p.TakesOut cs q) (ht : p.Tidy)
    (hcs : ∀ e ∈ p.pooled, e.id = c → (c ∈ cs ↔ e.expired now = true)) : p.Inspected now c q := by
  intro e he hid
  obtain ⟨hmem, hp⟩ := mem_pooled.mp he
  rw [← hcs e he hid]
  constructor
  · intro hout
    have hgone := (h.tidy ht).gone_of_not_holds (c := c) ?_ hout
    · exact (h.gone_iff.mp hgone).resolve_left (hid ▸ ht.not_gone hmem hp)
    · rw [ids, h.map_id]
      exact hid ▸ List.mem_map_of_mem hmem
  · exact fun hc => (h.tidy ht).holds_of_gone (h.gone_iff.mpr (.inr hc))

/-- **A sweep** inspects every connection. -/
theorem inspected_expired (ht : p.Tidy) (now : Instant) (c : ConnId) :
    p.Inspected now c (Order.expired.start now p).1 := by
  obtain ⟨cs, q, hstart, htakes, -⟩ := Order.expired.start_eq ht now
  have hpool : (Order.expired.start now p).1 = p.removeAll fun e => e.expired now := by
    dsimp only [Order.start, Removal.ofExpired, Removal.start, Removal.closing]
    split <;> rfl
  rw [hpool]
  refine (TakesOut.removeAll ht _).inspected ht fun e he hid => ?_
  rw [picked, List.mem_map]
  constructor
  · rintro ⟨f, hf, hfid⟩
    obtain ⟨hf, hexpired⟩ := List.mem_filter.mp hf
    rwa [ht.eq_of_id (mem_pooled.mp he).1 (mem_pooled.mp hf).1 (hid.trans hfid.symm)]
  · exact fun hexpired => ⟨e, List.mem_filter.mpr ⟨he, hexpired⟩, hid⟩

namespace Get

variable {g g' : Get} {a : Answer}

/-- A search has found a connection: it asks it for a sign of life, or replaces it. -/
def HasFound (g : Get) (c : ConnId) : Prop := g.phase = .probing c ∨ g.phase = .replacing c

theorem not_hasFound_makeRoom (h : (g.makeRoom p).2 = .waits g') : ¬ g'.HasFound c := by
  unfold makeRoom at h
  split at h <;> cases h <;> simp [HasFound]

theorem not_hasFound_trim {made : ConnId} (h : (g.trim made p).2 = .waits g') :
    ¬ g'.HasFound c := by
  unfold trim at h
  split at h <;> cases h
  simp [HasFound]

/-- **A search that looks for a connection** inspects the one that it finds. -/
theorem lookUp_inspects (ht : p.Tidy) (h : (g.lookUp now p).2 = .waits g') (hc : g'.HasFound c) :
    p.Inspected now c (g.lookUp now p).1 := by
  unfold lookUp at h ⊢
  split at h
  · exact absurd hc (not_hasFound_makeRoom h)
  · next e he =>
    obtain ⟨hmem, hp, -⟩ := mem_of_lookup he
    have hsame {f : Entry} (hf : f ∈ p.pooled) (hid : f.id = e.id) : f = e :=
      ht.eq_of_id (mem_pooled.mp hf).1 hmem hid
    split at h
    · next hexpired =>
      cases h
      obtain hc | hc := hc <;> cases hc
      rw [if_pos hexpired]
      refine (TakesOut.remove ⟨e, hmem, rfl, rfl⟩).inspected ht fun f hf hid => ?_
      rw [hsame hf hid]
      exact iff_of_true (List.mem_singleton_self _) hexpired
    · next hexpired =>
      cases h
      obtain hc | hc := hc <;> cases hc
      rw [if_neg hexpired]
      refine (TakesOut.of_entries_eq rfl).inspected ht fun f hf hid => ?_
      rw [hsame hf hid]
      exact iff_of_false List.not_mem_nil hexpired

/-- A search that begins inspects the connection that it finds. -/
theorem start_inspects {caller : CallId} {t : Target} (ht : p.Tidy)
    (h : (Get.start caller t now p).2 = .waits g') (hc : g'.HasFound c) :
    p.Inspected now c (Get.start caller t now p).1 := by
  unfold Get.start at h ⊢
  split at h
  · cases h
  · have ht' : (asking caller t p).2.Tidy := ⟨ht.ids, ht.logins⟩
    dsimp only at h ⊢
    split at h
    · next hturn =>
      have hinspected : (asking caller t p).2.Inspected now c _ :=
        lookUp_inspects (g := (asking caller t p).1) ht' h hc
      rw [if_pos hturn]
      exact hinspected
    · cases h
      obtain hc | hc := hc <;> cases hc

/-- A search that goes on inspects the connection that it finds; one that gave no sign of life was
not found just now. -/
theorem resume_inspects (ht : p.Tidy) (ha : (Call.search g).mayHear p a = true)
    (hg : g.phase ≠ .probing c) (h : (g.resume a now p).2 = .waits g') (hc : g'.HasFound c) :
    p.Inspected now c (g.resume a now p).1 := by
  obtain ⟨caller, t, lock, phase⟩ := g
  cases phase with
  | queued =>
    cases a with
    | admitted => exact lookUp_inspects ht h hc
    | _ => cases ha
  | probing d =>
    cases a with
    | alive b =>
      cases b with
      | true => cases h
      | false =>
        cases h
        obtain hc | hc := hc <;> cases hc
        exact absurd rfl hg
    | _ => cases ha
  | replacing d =>
    cases a with
    | closed n => exact absurd hc (not_hasFound_makeRoom h)
    | _ => cases ha
  | clearing d =>
    cases a with
    | closed n => exact absurd hc (not_hasFound_makeRoom h)
    | _ => cases ha
  | connecting =>
    cases a with
    | connected r =>
      cases r with
      | error f => cases h
      | ok d => exact absurd hc (not_hasFound_trim h)
    | _ => cases ha
  | trimming d made =>
    cases a with
    | closed n => exact absurd hc (not_hasFound_trim h)
    | _ => cases ha

end Get

end RemoteShell.Pool
