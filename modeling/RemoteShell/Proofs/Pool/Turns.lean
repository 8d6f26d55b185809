import RemoteShell.Proofs.Cells.Exclusion
import RemoteShell.Proofs.Pool.Records
import RemoteShell.Proofs.Pool.Traffic

/-!
# What a turn can do

Between two of its waits a call goes on without a break.  This module says once what it can do
there, so that later on nothing needs to be known of how searches and removals go about it.

A turn of a search has two parts.  First the answer is taken note of: the records stay in their
places, or a new connection is pooled.  Then the search comes to its next wait, and takes out what
it asks to be closed, or ends.

## Main definitions

* `Get.Fits`: what a search relies on while it waits
* `Get.Hears`: the first part of a turn
* `Get.Lands`, `Get.Turn`: the second part
* `Order.picks`: the pooled records that an order is about

## Main results

* `Get.resume_turn`, `Get.start_cases`: the turns of a search
* `Order.start_eq_picks`, `Order.start_eq`: the only turn of an order in which connections are
  taken out
-/

namespace RemoteShell.Pool

open Cells (Guarded)

/-! ## A close is over -/

theorem noteClosed_eq (p : Pool) (c : ConnId) :
    p.noteClosed c = { p with
      locks := (p.entry? c).elim p.locks fun e => p.locks.retire e.key fun _ => true
      counters := { p.counters with closed := p.counters.closed + 1 } } := by
  -- The record is looked up among the old records: the counter is none of them.
  have hsame : ∀ n, Pool.entry? { p with counters := n } c = p.entry? c := fun _ => rfl
  simp only [noteClosed, dropLock, hsame]
  cases p.entry? c <;> rfl

theorem takesOut_noteClosed (p : Pool) (c : ConnId) : p.TakesOut [] (p.noteClosed c) :=
  .of_entries_eq (by rw [noteClosed_eq])

theorem counters_noteClosed (p : Pool) (c : ConnId) :
    (p.noteClosed c).counters = { p.counters with closed := p.counters.closed + 1 } := by
  rw [noteClosed_eq]

theorem guarded_noteClosed {p : Pool} {us : List (Cells.User Login)} (h : Guarded p.locks us)
    (c : ConnId) : Guarded (p.noteClosed c).locks us := by
  rw [noteClosed_eq]
  cases p.entry? c with
  | none => exact h
  | some e => exact h.retire e.key _

namespace Get

/-- The connection that a search means to end with. -/
def hand (g : Get) : Option ConnId :=
  match g.phase with
  | .probing c | .trimming _ c => some c
  | .queued | .replacing _ | .clearing _ | .connecting => none

/-- **What a search relies on while it waits**: under the lock of its login nobody else pools a
connection. -/
def Fits (g : Get) (p : Pool) : Prop :=
  match g.phase with
  | .queued => True
  | .probing c => p.Knows c g.target.login ∧ p.Only c g.target.login
  | .replacing _ | .clearing _ | .connecting => p.Vacant g.target.login
  | .trimming _ made => p.Knows made g.target.login

/-- **An answer is taken note of**: a close is over, or a use is noted, or a new connection is
pooled. -/
inductive Hears (g : Get) (p : Pool) : Pool → Prop
  | keeps {q : Pool} (takes : p.TakesOut [] q)
      (locks : ∀ us, Guarded p.locks us → Guarded q.locks us)
      (created : q.counters.created = p.counters.created)
      (evicted : q.counters.evicted = p.counters.evicted)
      (closed : q.counters.closed = p.counters.closed + g.closing.length) : Hears g p q
  | pools {c : ConnId} {now : Instant} (phase : g.phase = .connecting)
      (vacant : p.Vacant g.target.login) (new : p.entry? c = none) :
      Hears g p (p.insert c g.target now)

/-- **A search comes to its next wait**, with the connection taken out that it asks to be closed. -/
structure Lands (g : Get) (p : Pool) (phase : Phase) (q : Pool) : Prop where
  inside : phase ≠ .queued
  -- What it asks to be closed is taken out.
  takes : p.TakesOut (closing { g with phase }) q
  fits : Fits { g with phase } q
  -- What it asks to be closed was in the pool, unless it had not answered a probe.
  held : ∀ c ∈ closing { g with phase },
    p.Gone c → g.phase = .probing c ∧ phase = .replacing c
  -- It replaces nothing but a connection of its own login.
  own : ∀ c, phase = .replacing c → p.Knows c g.target.login
  -- What it means to end with is in the pool, unless it was lost before.
  kept : ∀ c, hand { g with phase } = some c → q.Gone c → g.hand = some c ∧ p.Gone c
  locks : q.locks = p.locks
  created : q.counters.created = p.counters.created
  closed : q.counters.closed = p.counters.closed
  evicted : q.counters.evicted ≤ p.counters.evicted + (closing { g with phase }).length

/-- **The second part of a turn**: a search comes to its next wait or ends. -/
inductive Turn (g : Get) (p : Pool) : Pool × Progress Get Result → Prop
  | waits {phase : Phase} {q : Pool} (lands : g.Lands p phase q) :
      Turn g p (q, .waits { g with phase })
  | ends {r : Result} (found : ∀ c, r = .ok c → g.phase ≠ .queued ∧
      p.Knows c g.target.login ∧ (p.Gone c → g.hand = some c)) : Turn g p (g.finish r p)

variable {g : Get} {p : Pool} {c : ConnId} {e : Entry}

/-! ## The second part -/

theorem makeRoom_turn (ht : p.Tidy) (hv : p.Vacant g.target.login) : g.Turn p (g.makeRoom p) := by
  unfold makeRoom
  split
  · next v q hq =>
    obtain ⟨⟨hmem, hp, -⟩, rfl⟩ := evict?_eq_some hq
    have htakes := TakesOut.evict hq
    refine .waits ⟨nofun, htakes, htakes.vacant hv, ?_, nofun, nofun, rfl, rfl, rfl, Nat.le_refl _⟩
    intro c hc hgone
    rw [List.mem_singleton.mp hc] at hgone
    exact absurd hgone (ht.not_gone hmem hp)
  · exact .waits
      ⟨nofun, .of_entries_eq rfl, hv, nofun, nofun, nofun, rfl, rfl, rfl, Nat.le_refl _⟩

theorem trim_turn {made : ConnId} (ht : p.Tidy) (hq : g.phase ≠ .queued)
    (hk : p.Knows made g.target.login) (hm : p.Gone made → g.hand = some made) :
    g.Turn p (g.trim made p) := by
  unfold trim
  split
  · next v q hq =>
    obtain ⟨⟨hmem, hp, hne⟩, rfl⟩ := evict?_eq_some hq
    have htakes := TakesOut.evict hq
    refine .waits ⟨nofun, htakes, htakes.knows hk, ?_, nofun, ?_, rfl, rfl, rfl, Nat.le_refl _⟩
    · intro c hc hgone
      rw [List.mem_singleton.mp hc] at hgone
      exact absurd hgone (ht.not_gone hmem hp)
    · rintro c ⟨⟩ hgone
      rcases htakes.gone_iff.mp hgone with hgone | hc
      · exact ⟨hm hgone, hgone⟩
      · -- What is taken out has another login than the connection that is kept.
        obtain ⟨e, he, hid, hkey⟩ := hk
        rw [ht.eq_of_id he hmem (hid.trans (List.mem_singleton.mp hc))] at hkey
        exact absurd (congrArg some hkey) hne
  · refine .ends ?_
    rintro c ⟨⟩
    exact ⟨hq, hk, hm⟩

theorem replace_turn (hk : p.Knows c g.target.login) (ho : p.Only c g.target.login)
    (hc : p.Gone c → g.phase = .probing c) : g.Turn p (g.replace c p) := by
  have htakes := TakesOut.remove hk
  refine .waits ⟨nofun, htakes, htakes.vacant_of_only ho (List.mem_singleton_self c), ?_, ?_,
    nofun, rfl, rfl, rfl, Nat.le_succ _⟩
  · intro d hd hgone
    rw [List.mem_singleton.mp hd] at hgone ⊢
    exact ⟨hc hgone, rfl⟩
  · rintro d ⟨⟩
    exact hk

theorem lookUp_turn (ht : p.Tidy) (now : Instant) : g.Turn p (g.lookUp now p) := by
  unfold lookUp
  split
  · next hnone => exact makeRoom_turn ht (lookup_eq_none_iff.mp hnone)
  · next e he =>
    obtain ⟨hmem, hp, hkey⟩ := mem_of_lookup he
    have hknows : p.Knows e.id g.target.login := ⟨e, hmem, rfl, hkey⟩
    have honly : p.Only e.id g.target.login := by
      intro f hf hfp hfk
      rw [ht.logins f hf e hmem hfp hp (hfk.trans hkey.symm)]
    have hheld : ¬ p.Gone e.id := ht.not_gone hmem hp
    split
    · exact replace_turn hknows honly fun hgone => absurd hgone hheld
    · refine .waits ⟨nofun, .of_entries_eq rfl, ⟨hknows, honly⟩, nofun, nofun, ?_, rfl, rfl, rfl,
        Nat.le_refl _⟩
      rintro c ⟨⟩ hgone
      exact absurd hgone hheld

/-! ## Whole turns -/

/-- What has left the pool is the same before and after an answer is taken note of. -/
theorem Hears.gone_iff {q : Pool} (h : g.Hears p q) : q.Gone c ↔ p.Gone c := by
  cases h with
  | keeps takes => simpa using takes.gone_iff
  | pools _ vacant _ => exact gone_insert_iff vacant

theorem Hears.noteClosed {c : ConnId} (hc : g.closing = [c]) : g.Hears p (p.noteClosed c) := by
  refine .keeps (takesOut_noteClosed p c) (fun us h => guarded_noteClosed h c) ?_ ?_ ?_
  all_goals simp [counters_noteClosed, hc]

/-- **A search goes on with an answer that it may hear**: it takes note of it, and comes to its next
wait or ends. -/
theorem resume_turn (ht : p.Tidy) (hf : g.Fits p) {a : Answer}
    (ha : (Call.search g).mayHear p a = true) (now : Instant) :
    ∃ q, g.Hears p q ∧ g.Turn q (g.resume a now p) := by
  obtain ⟨caller, t, lock, phase⟩ := g
  have hsame : ∀ {φ}, closing ⟨caller, t, lock, φ⟩ = [] → Hears ⟨caller, t, lock, φ⟩ p p :=
    fun h => .keeps (.of_entries_eq rfl) (fun _ h => h) rfl rfl (by rw [h]; rfl)
  cases phase with
  | queued =>
    cases a with
    | admitted => exact ⟨p, hsame rfl, lookUp_turn ht now⟩
    | _ => cases ha
  | probing c =>
    cases a with
    | alive b =>
      cases b with
      | true =>
        have htakes := TakesOut.noteReused p c now
        refine ⟨p.noteReused c now, .keeps htakes (fun _ h => h) rfl rfl rfl,
          .ends (r := .ok c) ?_⟩
        rintro _ ⟨⟩
        exact ⟨nofun, htakes.knows hf.1, fun _ => rfl⟩
      | false => exact ⟨p, hsame rfl, replace_turn hf.1 hf.2 fun _ => rfl⟩
    | _ => cases ha
  | replacing c =>
    cases a with
    | closed n =>
      have htakes := takesOut_noteClosed p c
      exact ⟨p.noteClosed c, .noteClosed rfl, makeRoom_turn (htakes.tidy ht) (htakes.vacant hf)⟩
    | _ => cases ha
  | clearing c =>
    cases a with
    | closed n =>
      have htakes := takesOut_noteClosed p c
      exact ⟨p.noteClosed c, .noteClosed rfl, makeRoom_turn (htakes.tidy ht) (htakes.vacant hf)⟩
    | _ => cases ha
  | connecting =>
    cases a with
    | connected r =>
      cases r with
      | error f => exact ⟨p, hsame rfl, .ends (r := .error f) nofun⟩
      | ok c =>
        have hnew : p.entry? c = none := Option.isNone_iff_eq_none.mp ha
        refine ⟨p.insert c t now, .pools rfl hf hnew, ?_⟩
        refine trim_turn (ht.insert hf hnew) nofun (knows_insert hf) fun hgone => ?_
        obtain ⟨e, he, hid, -⟩ := (gone_insert_iff hf).mp hgone
        exact absurd hid (entry?_eq_none_iff.mp hnew e he)
    | _ => cases ha
  | trimming c made =>
    cases a with
    | closed n =>
      have htakes := takesOut_noteClosed p c
      exact ⟨p.noteClosed c, .noteClosed rfl,
        trim_turn (htakes.tidy ht) nofun (htakes.knows hf) fun _ => rfl⟩
    | _ => cases ha

/-- The search with which a call begins, and the pool in which it has asked for its lock. -/
def asking (caller : CallId) (t : Target) (p : Pool) : Get × Pool :=
  let opened := p.locks.openCell t.login ()
  (⟨caller, t, opened.1, .queued⟩, { p with locks := opened.2.enter opened.1 caller })

/-- **A search begins**: it is refused before it gets a lock, or it queues, or it gets the lock at
once and looks for a connection. -/
theorem start_cases (ht : p.Tidy) (caller : CallId) (t : Target) (now : Instant) :
    (∃ f, Get.start caller t now p = (p, .ends (.error f))) ∨
      Get.start caller t now p = ((asking caller t p).2, .waits (asking caller t p).1) ∨
      (asking caller t p).1.admitted (asking caller t p).2 = true ∧
        (asking caller t p).1.Turn (asking caller t p).2 (Get.start caller t now p) := by
  unfold Get.start
  cases t.validate with
  | error f => exact .inl ⟨f, rfl⟩
  | ok u =>
    have ht' : (asking caller t p).2.Tidy := ⟨ht.ids, ht.logins⟩
    refine .inr ?_
    by_cases hturn : (asking caller t p).1.admitted (asking caller t p).2
    · refine .inr ⟨hturn, ?_⟩
      dsimp only [asking] at hturn ⊢
      rw [if_pos hturn]
      exact lookUp_turn ht' now
    · refine .inl ?_
      dsimp only [asking] at hturn ⊢
      rw [if_neg hturn]

end Get

/-! ## Orders -/

/-- A removal hears of the end of a close that it waits for. -/
theorem Removal.resume_closed {r : Removal} {c : ConnId} (hc : c ∈ r.pending) (p : Pool) :
    r.resume (.closed c) p = (p.noteClosed c,
      if r.pending.erase c = [] then .ends r.count
      else .waits { r with pending := r.pending.erase c }) := by
  have hcontains : r.pending.contains c = true := by simpa using hc
  rw [resume, if_pos hcontains]
  cases r.pending.erase c <;> rfl

theorem picked_nodup {p : Pool} (ht : p.Tidy) (pick : Entry → Bool) : (p.picked pick).Nodup :=
  (List.filter_sublist.map _).nodup ht.nodup_pooled_ids

/-- **What an order picks** among the pooled records: those to a host, whoever the user and whatever
the port; all of them; those that have been idle for longer than they may be; or one. -/
def Order.picks (o : Order) (now : Instant) (e : Entry) : Bool :=
  match o with
  | .host name => e.key.host = name
  | .all => true
  | .expired => e.idleTimeout < e.idle now
  | .one c => e.id = c

/-- A connection is picked by its number if it is in the pool, and no other is. -/
theorem Tidy.picked_id {p : Pool} (ht : p.Tidy) (c : ConnId) :
    p.picked (fun e => e.id = c) = if p.holds c then [c] else [] := by
  split
  · next hholds =>
    obtain ⟨e, he, hid, hp⟩ := ht.holds_iff.mp hholds
    apply List.perm_singleton.mp
    rw [List.perm_ext_iff_of_nodup (picked_nodup ht _) (List.nodup_singleton c)]
    intro d
    rw [List.mem_singleton, mem_picked]
    constructor
    · rintro ⟨f, -, ⟨-, hpick⟩, rfl⟩
      exact decide_eq_true_eq.mp hpick
    · rintro rfl
      exact ⟨e, he, ⟨hp, decide_eq_true hid⟩, hid⟩
  · next hholds =>
    apply List.eq_nil_iff_forall_not_mem.mpr
    intro d hd
    obtain ⟨f, hf, ⟨hp, hpick⟩, -⟩ := mem_picked.mp hd
    exact hholds (ht.holds_iff.mpr ⟨f, hf, decide_eq_true_eq.mp hpick, hp⟩)

/-- **Every order takes out what it picks.** -/
theorem Order.start_eq_picks {p : Pool} (ht : p.Tidy) (o : Order) (now : Instant) :
    o.start now p = Removal.start (o.picks now) p := by
  cases o with
  | host name => rfl
  | all => rfl
  | expired => rfl
  | one c =>
    have hpicked : p.picked ((Order.one c).picks now) = if p.holds c then [c] else [] :=
      ht.picked_id c
    rw [Order.start, Removal.invalidate, Removal.start]
    by_cases hholds : p.holds c = true
    · rw [if_pos hholds] at hpicked ⊢
      rw [hpicked]
      exact congrArg (Removal.closing [c]) (removeAll_id p c).symm
    · rw [if_neg hholds] at hpicked ⊢
      rw [hpicked, removeAll_of_picked_eq_nil hpicked]
      rfl

/-- **An order takes out what is in the pool**, each connection once, and has it closed. -/
theorem Order.start_eq {p : Pool} (ht : p.Tidy) (o : Order) (now : Instant) :
    ∃ cs q, o.start now p = Removal.closing cs q ∧ p.TakesOut cs q ∧ cs.Nodup ∧
      (∀ c ∈ cs, ¬ p.Gone c) ∧ q.locks = p.locks ∧ q.counters = p.counters := by
  refine ⟨p.picked (o.picks now), p.removeAll (o.picks now), ?_, .removeAll ht _,
    picked_nodup ht _, ?_, rfl, rfl⟩
  · rw [o.start_eq_picks ht, Removal.start]
  · intro c hc
    obtain ⟨e, he, ⟨hp, -⟩, rfl⟩ := mem_picked.mp hc
    exact ht.not_gone he hp

end RemoteShell.Pool
