import Mathlib.Data.List.Perm.Subperm
import Mathlib.Data.List.Induction
import RemoteShell.Proofs.Pool.Soundness

/-!
# Connections are accounted for

Every connection that was opened is in the pool or has left it, and each time one leaves the pool
its close is asked for, and counted when it is over.  If no call is given up on the way, and no call
is under way, the counter of closes is the number of closes that were asked for.

This is the number of the connections that have left the pool unless one of them was closed twice.
That happens in one way only: a search asks a connection for a sign of life, somebody else takes the
connection out of the pool and closes it, and the connection gives no sign of life.  The search
takes it for dead and closes it again, without asking whether it was still there to be taken out.

## Main definitions

* `Traffic.ClosedLate`: a search closes a connection that somebody else has taken out
* `Traffic.Balanced`: the counters and the closes that are asked for agree

## Main results

* `Happens.nodup_closes`: one event closes a connection twice only if it comes too late
* `Happens.inBalance`: one event keeps the counters and the closes in balance
* `counters_conserved_iff`: when the counters of a quiet pool say how many connections it has
-/

namespace RemoteShell.Traffic

open Pool

variable {s t u : Traffic} {now : Instant} {e : Event} {o : Option Ending} {id : CallId}
  {c : ConnId} {g : Get} {p q : Pool} {es : List (Instant × Event)} {calls : Assoc CallId Call}
  {closes cs : List ConnId} {settings : PoolSettings} {walk : Walk}

/-! ## Closed twice -/

/-- **A close that comes too late**: a search is told that its connection is dead after the
connection has left the pool. -/
def ClosedLate (s : Traffic) (_ : Instant) (e : Event) : Prop :=
  ∃ id g c, e = .answer id (.alive false) ∧ s.calls.get? id = some (.search g) ∧
    g.phase = .probing c ∧ s.pool.holds c = false

/-- Only what a search hears can come too late. -/
theorem not_closedLate (he : ∀ id, e ≠ .answer id (.alive false)) : ¬ s.ClosedLate now e := by
  rintro ⟨id, g, c, rfl, -⟩
  exact he id rfl

theorem Sound.nodup_append_iff (h : s.Sound) (hcs : cs.Nodup) :
    (s.closes ++ cs).Nodup ↔ s.closes.Nodup ∧ ∀ c ∈ cs, ¬ s.pool.Gone c := by
  rw [List.nodup_append]
  constructor
  · rintro ⟨hcloses, -, hdisjoint⟩
    exact ⟨hcloses, fun c hc hgone => hdisjoint c ((h.closes c).mpr hgone) c hc rfl⟩
  · rintro ⟨hcloses, hgone⟩
    refine ⟨hcloses, hcs, ?_⟩
    rintro c hc _ hc' rfl
    exact hgone c hc' ((h.closes c).mp hc)

theorem nodup_closing (g : Get) : g.closing.Nodup := by
  unfold Get.closing
  split <;> simp

theorem resume_dead (hg : g.phase = .probing c) (now : Instant) (p : Pool) :
    g.resume (.alive false) now p = (p.remove c, .waits { g with phase := .replacing c }) := by
  obtain ⟨caller, t, lock, phase⟩ := g
  cases hg
  rfl

/-- A search that asks for a sign of life and does not end has been told that there is none. -/
theorem dead_of_waits {a : Answer} {g' : Get} (hg : g.phase = .probing c)
    (may : (Call.search g).mayHear p a = true) (hq : g.resume a now p = (q, .waits g')) :
    a = .alive false := by
  obtain ⟨caller, t, lock, phase⟩ := g
  cases hg
  cases a with
  | alive b =>
    cases b with
    | true => cases hq
    | false => rfl
  | _ => cases may

theorem Sound.holds_iff_of_probing (h : s.Sound) (call : s.calls.get? id = some (.search g))
    (hg : g.phase = .probing c) : s.pool.holds c = true ↔ ¬ s.pool.Gone c := by
  have hfits : g.Fits s.pool := h.fits _ (Assoc.mem_of_get? call)
  rw [Get.Fits, hg] at hfits
  exact h.tidy.holds_iff_not_gone hfits.1

/-- **A search asks for the close of a connection that has left the pool only when it comes too
late.** -/
theorem closedLate_iff (h : s.Sound) {a : Answer} {φ : Get.Phase}
    (call : s.calls.get? id = some (.search g)) (may : (Call.search g).mayHear s.pool a = true)
    (notes : g.Hears s.pool p) (lands : g.Lands p φ q)
    (hq : g.resume a now s.pool = (q, .waits { g with phase := φ })) :
    s.ClosedLate now (.answer id a) ↔ ∃ c ∈ Get.closing { g with phase := φ }, s.pool.Gone c := by
  constructor
  · rintro ⟨i, g', c, he, hg', hphase, hholds⟩
    cases he
    cases call.symm.trans hg'
    rw [resume_dead hphase] at hq
    cases hq
    refine ⟨c, by simp [Get.closing], ?_⟩
    by_contra hgone
    rw [(h.holds_iff_of_probing call hphase).mpr hgone] at hholds
    cases hholds
  · rintro ⟨c, hc, hgone⟩
    obtain ⟨hphase, rfl⟩ := lands.held c hc (notes.gone_iff.mpr hgone)
    cases dead_of_waits hphase may hq
    refine ⟨id, g, c, rfl, call, hphase, ?_⟩
    by_contra hholds
    exact (h.holds_iff_of_probing call hphase).mp (by simpa using hholds) hgone

/-- **One event closes a connection twice only if it comes too late.** -/
theorem Happens.nodup_closes {r : Traffic × Option Ending} (h : s.Happens now e r) (hs : s.Sound) :
    r.1.closes.Nodup ↔ s.closes.Nodup ∧ ¬ s.ClosedLate now e := by
  cases h with
  | refuses => simp [not_closedLate]
  | queues => simp [not_closedLate, afterSearch, Get.closing, Get.asking]
  | @begins id t x new turn does =>
    cases does with
    | waits lands =>
      rw [afterSearch, hs.nodup_append_iff (nodup_closing _)]
      refine and_congr_right fun _ => iff_of_true ?_ (not_closedLate (by simp))
      intro c hc hgone
      cases (lands.held c hc hgone).1
    | @ends r =>
      obtain ⟨q, hq, -⟩ := (Get.asking id t s.pool).1.finish_eq r (Get.asking id t s.pool).2
      rw [hq]
      simp [not_closedLate, afterSearch]
  | orders _ _ once held =>
    rw [afterOrder_closing, hs.nodup_append_iff once]
    exact and_congr_right fun _ => iff_of_true held (not_closedLate (by simp))
  | @hears id a g p call may notes does =>
    generalize hx : g.resume a now s.pool = x at does
    cases does with
    | waits lands =>
      rw [afterSearch, hs.nodup_append_iff (nodup_closing _),
        closedLate_iff hs call may notes lands hx]
      simp
    | @ends r =>
      obtain ⟨q, hq, -⟩ := g.finish_eq r p
      have hlate : ¬ s.ClosedLate now (.answer id a) := by
        rintro ⟨i, g', c, he, hg', hphase, -⟩
        cases he
        cases call.symm.trans hg'
        rw [resume_dead hphase, hq] at hx
        cases hx
      rw [hq]
      simp [hlate, afterSearch]
  | @closes id c r call pending =>
    rw [afterClose_resume _ _ pending]
    simp [not_closedLate]
  | @abandons id c => cases c <;> simp [not_closedLate, abandon]
  | uses => simp [not_closedLate]

theorem nodup_closes_iff (h : (idle settings walk).run es = some s) :
    s.closes.Nodup ↔ ¬ (idle settings walk).Sometime es ClosedLate := by
  induction es using List.reverseRecOn generalizing s with
  | nil =>
    cases h
    simp [idle, not_sometime_nil]
  | append_singleton es x ih =>
    obtain ⟨now, e⟩ := x
    obtain ⟨u, o, hu, hstep⟩ := run_snoc_eq_some.mp h
    have hsu : u.Sound := Sound.run (.idle settings walk) hu
    rw [(hsu.happens hstep).nodup_closes hsu, ih hu, sometime_snoc_iff, not_or]
    simp [hu]

/-! ## Counters -/

/-- The closes that calls have asked for and that are not over. -/
def pending (calls : Assoc CallId Call) : List ConnId := calls.flatMap fun x => x.2.closing

/-- **The counters of a pool and the closes that were asked for agree**, while so many of them are
not over. -/
structure Balanced (p : Pool) (pending : Nat) (closes : List ConnId) : Prop where
  created : p.counters.created = p.entries.length
  closed : closes.length = p.counters.closed + pending
  evicted : p.counters.evicted ≤ closes.length

theorem length_pending {call : Call} (hk : calls.Keyed) (hc : calls.get? id = some call) :
    (pending calls).length = call.closing.length + (pending (calls.erase id)).length := by
  have hperm := (hk.perm_cons_erase hc).flatMap_right fun x : CallId × Call => x.2.closing
  rw [pending, hperm.length_eq, List.flatMap_cons, List.length_append]
  rfl

theorem pending_put (calls : Assoc CallId Call) (id : CallId) (call : Call) :
    pending (calls.put id call) = pending (calls.erase id) ++ call.closing := by
  simp [pending, Assoc.put]

theorem pending_removal (calls : Assoc CallId Call) (id : CallId) (cs : List ConnId) (n : Nat) :
    pending (if cs = [] then calls.erase id else calls.put id (.removal ⟨cs, n⟩)) =
      pending (calls.erase id) ++ cs := by
  split
  · next h => simp [h]
  · exact pending_put ..

/-- The counters of the pool and the closes that its calls have asked for agree. -/
def InBalance (s : Traffic) : Prop := Balanced s.pool (pending s.calls).length s.closes

/-- A turn counts a connection that is taken out to make room, whose close it asks for. -/
theorem Balanced.turn (h : Balanced p (pending (s.calls.erase id)).length s.closes)
    {x : Pool × Progress Get Get.Result} (hx : g.Turn p x) : (s.afterSearch id x).1.InBalance := by
  obtain ⟨hcreated, hclosed, hevicted⟩ := h
  cases hx with
  | waits lands =>
    have hmore := lands.evicted
    refine ⟨?_, ?_, ?_⟩ <;> dsimp only [afterSearch]
    · rw [lands.takes.length_eq, ← hcreated]
      exact lands.created
    · rw [List.length_append, pending_put, List.length_append, lands.closed, Call.closing]
      omega
    · rw [List.length_append]
      omega
  | @ends r =>
    obtain ⟨q, hq, hentries, hcounters, -⟩ := g.finish_eq r p
    rw [hq]
    refine ⟨?_, ?_, ?_⟩ <;> dsimp only [afterSearch] <;> rw [hcounters]
    · rw [hentries, hcreated]
    · exact hclosed
    · exact hevicted

theorem Balanced.hears {n : Nat} (h : Balanced p (g.closing.length + n) closes)
    (hn : g.Hears p q) : Balanced q n closes := by
  obtain ⟨hcreated, hclosed, hevicted⟩ := h
  cases hn with
  | keeps takes locks created evicted closed =>
    exact ⟨by rw [created, takes.length_eq, hcreated], by omega, by omega⟩
  | pools phase vacant new =>
    have hsame : closes.length = p.counters.closed + n := by
      simpa [Get.closing, phase] using hclosed
    refine ⟨?_, hsame, hevicted⟩
    rw [entries_insert vacant, List.length_append, ← hcreated]
    rfl

protected theorem InBalance.idle (settings : PoolSettings) (walk : Walk) :
    (idle settings walk).InBalance :=
  ⟨rfl, rfl, Nat.le_refl _⟩

/-- **One event keeps the balance**, unless a call is given up. -/
theorem Happens.inBalance {r : Traffic × Option Ending} (h : s.Happens now e r) (hs : s.Sound)
    (hb : s.InBalance) (he : ∀ id, e ≠ .abandon id) : r.1.InBalance := by
  obtain ⟨hcreated, hclosed, hevicted⟩ := hb
  cases h with
  | refuses => exact ⟨hcreated, hclosed, hevicted⟩
  | queues new =>
    refine ⟨hcreated, ?_, ?_⟩ <;> dsimp only [afterSearch]
    · rw [pending_put, Assoc.erase_of_get?_eq_none new]
      simpa [Get.asking, Get.closing, Call.closing] using hclosed
    · simpa [Get.asking, Get.closing] using hevicted
  | begins new _ does =>
    refine Balanced.turn ?_ does
    rw [Assoc.erase_of_get?_eq_none new]
    exact ⟨hcreated, hclosed, hevicted⟩
  | @orders id o cs q new takes once held locks counters =>
    rw [afterOrder_closing]
    refine ⟨?_, ?_, ?_⟩ <;> dsimp only
    · rw [counters, takes.length_eq, hcreated]
    · rw [pending_removal, Assoc.erase_of_get?_eq_none new, List.length_append,
        List.length_append, counters]
      omega
    · rw [counters, List.length_append]
      omega
  | @hears id a g p call may notes does =>
    refine Balanced.turn (Balanced.hears ?_ notes) does
    exact ⟨hcreated, (length_pending hs.keyed call) ▸ hclosed, hevicted⟩
  | @closes id c r call hc =>
    have hlength : (r.pending.erase c).length + 1 = r.pending.length := by
      rw [List.length_erase_of_mem hc]
      exact Nat.sub_add_cancel (List.length_pos_of_mem hc)
    rw [afterClose_resume _ _ hc]
    refine ⟨?_, ?_, ?_⟩ <;> dsimp only
    · rw [counters_noteClosed, (takesOut_noteClosed s.pool c).length_eq]
      exact hcreated
    · rw [pending_removal, List.length_append, counters_noteClosed]
      rw [length_pending hs.keyed call, Call.closing] at hclosed
      dsimp only
      omega
    · rw [counters_noteClosed]
      exact hevicted
  | abandons => exact absurd rfl (he _)
  | uses c => exact ⟨by simpa [touch, Pool.modify] using hcreated, hclosed, hevicted⟩

theorem InBalance.run (h : (idle settings walk).run es = some s)
    (hes : ∀ x ∈ es, ∀ id, x.2 ≠ .abandon id) : s.InBalance := by
  induction es using List.reverseRecOn generalizing s with
  | nil =>
    cases h
    exact .idle settings walk
  | append_singleton es x ih =>
    obtain ⟨now, e⟩ := x
    obtain ⟨u, o, hu, hstep⟩ := run_snoc_eq_some.mp h
    have hsu : u.Sound := Sound.run (.idle settings walk) hu
    refine (hsu.happens hstep).inBalance hsu ?_ (hes (now, e) (by simp))
    exact ih hu fun x hx => hes x (List.mem_append_left _ hx)

/-! ## A quiet pool -/

/-- The connections that have left the pool, each once. -/
def departed (p : Pool) : List ConnId := (p.entries.filter fun e => !e.pooled).map (·.id)

theorem mem_departed : c ∈ departed p ↔ p.Gone c := by
  simp only [departed, List.mem_map, List.mem_filter, Bool.not_eq_true', Gone]
  constructor
  · rintro ⟨e, ⟨he, hp⟩, hid⟩
    exact ⟨e, he, hid, hp⟩
  · rintro ⟨e, he, hid, hp⟩
    exact ⟨e, ⟨he, hp⟩, hid⟩

/-- Every connection ever opened is in the pool or has left it. -/
theorem length_entries (p : Pool) : p.entries.length = p.pooled.length + (departed p).length := by
  rw [departed, List.length_map, pooled]
  exact List.length_eq_length_filter_add _

/-- **As many closes were asked for as connections have left the pool** if and only if none was
asked for twice. -/
theorem Sound.nodup_closes_iff_length (h : s.Sound) :
    s.closes.Nodup ↔ s.closes.length = (departed s.pool).length := by
  have hdeparted : (departed s.pool).Nodup := (List.filter_sublist.map _).nodup h.tidy.ids
  have hmem (c : ConnId) : c ∈ departed s.pool ↔ c ∈ s.closes := by
    rw [mem_departed, h.closes]
  constructor
  · intro hnodup
    exact ((List.perm_ext_iff_of_nodup hdeparted hnodup).mpr hmem).length_eq.symm
  · intro hlength
    have hsub : (departed s.pool).Subperm s.closes :=
      List.subperm_of_subset hdeparted fun c hc => (hmem c).mp hc
    exact (hsub.perm_of_length_le (Nat.le_of_eq hlength)).nodup_iff.mp hdeparted

/-- **When the accounts are right**: if no call is given up, no connection is closed twice if and
only if no close comes too late; and whenever no call is under way, at most as many connections were
taken out to make room as were closed, and the connections that were opened are those in the pool
and those that were closed if and only if no close came too late. -/
theorem counters_conserved_iff (settings : PoolSettings) (h : (idle settings walk).run es = some s)
    (hes : ∀ x ∈ es, ∀ id, x.2 ≠ .abandon id) :
    (s.closes.Nodup ↔ ¬ (idle settings walk).Sometime es ClosedLate) ∧
      (s.calls = [] →
        s.pool.counters.evicted ≤ s.pool.counters.closed ∧
        (s.pool.counters.created = s.pool.pooled.length + s.pool.counters.closed ↔
          ¬ (idle settings walk).Sometime es ClosedLate)) := by
  have hs : s.Sound := Sound.run (.idle settings walk) h
  have honce := nodup_closes_iff h
  refine ⟨honce, fun hquiet => ?_⟩
  obtain ⟨hcreated, hclosed, hevicted⟩ := InBalance.run h hes
  have hnone : (pending s.calls).length = 0 := by rw [hquiet]; rfl
  have hentries := length_entries s.pool
  refine ⟨by omega, ?_⟩
  rw [← honce, hs.nodup_closes_iff_length]
  omega

/-- A connection is opened, taken out by an order and closed: it is accounted for. -/
theorem conserved_after_order :
    ∃ s, (idle ⟨2, .ofSecs 300, .ofSecs 30⟩).run
        [(.start, .search 0 ⟨"a", 22, some "u", none, none⟩),
          (.start, .answer 0 (.connected (.ok 0))), (.start, .order 1 .all),
          (.start, .answer 1 (.closed 0))] = some s ∧
      s.calls = [] ∧ s.closes.Nodup ∧
      s.pool.counters.created = s.pool.pooled.length + s.pool.counters.closed := by
  obtain ⟨s, hs, hquiet, hcounters⟩ :
      ∃ s, (idle ⟨2, .ofSecs 300, .ofSecs 30⟩).run
          [(.start, .search 0 ⟨"a", 22, some "u", none, none⟩),
            (.start, .answer 0 (.connected (.ok 0))), (.start, .order 1 .all),
            (.start, .answer 1 (.closed 0))] = some s ∧
        s.calls = [] ∧
        s.pool.counters.created = s.pool.pooled.length + s.pool.counters.closed :=
    ⟨_, rfl, rfl, rfl⟩
  obtain ⟨honce, hcount⟩ := counters_conserved_iff _ hs (by simp)
  exact ⟨s, hs, hquiet, honce.mpr ((hcount hquiet).2.mp hcounters), hcounters⟩

/-- **A connection may be closed twice**: while a search waits for a sign of life, an order takes
the connection out of the pool and closes it, and the search takes it for dead and closes it again.
Of two connections that were opened one is in the pool and two were closed. -/
theorem closed_twice_after_order :
    ∃ s, (idle ⟨2, .ofSecs 300, .ofSecs 30⟩).run
        [(.start, .search 0 ⟨"a", 22, some "u", none, none⟩),
          (.start, .answer 0 (.connected (.ok 0))),
          (.start, .search 1 ⟨"a", 22, some "u", none, none⟩), (.start, .order 2 .all),
          (.start, .answer 2 (.closed 0)), (.start, .answer 1 (.alive false)),
          (.start, .answer 1 (.closed 0)), (.start, .answer 1 (.connected (.ok 1)))] = some s ∧
      s.calls = [] ∧ s.closes = [0, 0] ∧ s.pool.counters.created = 2 ∧
      s.pool.pooled.length = 1 ∧ s.pool.counters.closed = 2 :=
  ⟨_, rfl, rfl, rfl, rfl, rfl, rfl⟩

end RemoteShell.Traffic
