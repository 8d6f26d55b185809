import Mathlib.Data.List.Induction
import RemoteShell.Proofs.Pool.Growth
import RemoteShell.Proofs.Pool.Soundness

/-!
# No connection is lost

A connection that was delivered is somebody's at every moment.  The pool has it, once and under one
login; or its close was asked for, and then a call waits for the close until it is over.  Only a
call that is given up while it waits for a close leaves a connection to nobody.  So when all calls
run to completion, each connection is in the end either in the pool, where nobody has asked for its
close, or closed.

## Main definitions

* `Traffic.closed`: the connections whose close is over
* `Traffic.Closing`: a call waits for the close of a connection
* `Traffic.GivesUpClose`: a call is given up while it waits for the close of a connection

## Main results

* `Happens.closing`: what one event makes of a close that is waited for
* `mem_closes_iff`: what becomes of a close that was asked for
* `owned_or_closed`: where the connections are when no call is under way
-/

namespace RemoteShell

/-- The connection whose close is over by an answer. -/
def Answer.closed? : Answer → Option ConnId
  | .closed c => some c
  | _ => none

/-- The connection whose close is over by an event. -/
def Pool.Event.closed? : Pool.Event → Option ConnId
  | .answer _ a => a.closed?
  | _ => none

namespace Traffic

open Pool

variable {s t u : Traffic} {now : Instant} {e : Event} {o : Option Ending} {id : CallId}
  {c : ConnId} {g : Get} {es fs : List (Instant × Event)} {settings : PoolSettings} {walk : Walk}

/-- **The connections whose close is over**: calls that waited for it were told so. -/
def closed (es : List (Instant × Event)) : List ConnId := es.filterMap fun x => x.2.closed?

theorem closed_append : closed (es ++ fs) = closed es ++ closed fs := List.filterMap_append

/-- A call under way waits for the close of a connection. -/
def Closing (s : Traffic) (c : ConnId) : Prop :=
  ∃ id call, s.calls.get? id = some call ∧ c ∈ call.closing

/-- **A close is given up**: the call that waits for it is given up. -/
def GivesUpClose (c : ConnId) (s : Traffic) (_ : Instant) (e : Event) : Prop :=
  ∃ id call, e = .abandon id ∧ s.calls.get? id = some call ∧ c ∈ call.closing

/-! ## What one event does -/

theorem not_closing_idle (settings : PoolSettings) (walk : Walk) (c : ConnId) :
    ¬ (idle settings walk).Closing c := by
  rintro ⟨id, call, hcall, -⟩
  cases hcall

/-- A search that comes to its next wait asks for the closes that it waits for. -/
theorem mem_closes_afterSearch (s : Traffic) (id : CallId)
    (x : Pool × Progress Get Get.Result) (h : c ∈ (s.afterSearch id x).1.closes) :
    c ∈ s.closes ∨ (s.afterSearch id x).1.Closing c := by
  obtain ⟨p, g | r⟩ := x
  · rcases List.mem_append.mp h with h | h
    · exact .inl h
    · exact .inr ⟨id, .search g, Assoc.get?_put_self .., h⟩
  · exact .inl h

theorem Happens.mem_closes {r : Traffic × Option Ending} (h : s.Happens now e r)
    (hc : c ∈ r.1.closes) : c ∈ s.closes ∨ r.1.Closing c := by
  cases h with
  | refuses => exact .inl hc
  | queues => exact mem_closes_afterSearch _ _ _ hc
  | begins => exact mem_closes_afterSearch _ _ _ hc
  | @orders id o cs q =>
    rw [afterOrder_closing] at hc ⊢
    rcases List.mem_append.mp hc with hc | hc
    · exact .inl hc
    · refine .inr ⟨id, .removal ⟨cs, cs.length⟩, ?_, hc⟩
      dsimp only
      rw [if_neg (List.ne_nil_of_mem hc)]
      exact Assoc.get?_put_self ..
  | hears => exact mem_closes_afterSearch _ _ _ hc
  | closes _ pending =>
    rw [afterClose_resume _ _ pending] at hc
    exact .inl hc
  | @abandons id call => cases call <;> exact .inl hc
  | uses => exact .inl hc

/-- What a search hears is the end of a close if and only if it waits for that close. -/
theorem closed?_eq_some_iff {p : Pool} {a : Answer} (may : (Call.search g).mayHear p a = true) :
    a.closed? = some c ↔ c ∈ g.closing := by
  obtain ⟨caller, tgt, lock, phase⟩ := g
  cases a with
  | closed n =>
    have hn : n ∈ Get.closing ⟨caller, tgt, lock, phase⟩ := by
      cases phase <;> simp_all [Call.mayHear, Call.wait, Get.wait, Get.closing]
    cases phase <;> simp_all [Get.closing, Answer.closed?, eq_comm (a := c)]
  | _ =>
    cases phase <;> simp_all [Call.mayHear, Call.wait, Get.wait, Get.closing, Answer.closed?]

/-- **A close that is waited for** goes on to be waited for, or is over, or is given up. -/
theorem Happens.closing {r : Traffic × Option Ending} (h : s.Happens now e r)
    (hc : s.Closing c) : r.1.Closing c ∨ e.closed? = some c ∨ GivesUpClose c s now e := by
  obtain ⟨id, call, hcall, hmem⟩ := hc
  by_cases hown : e.call? = some id
  · cases h with
    | refuses new =>
      cases hown
      cases hcall.symm.trans new
    | queues new =>
      cases hown
      cases hcall.symm.trans new
    | begins new =>
      cases hown
      cases hcall.symm.trans new
    | orders new =>
      cases hown
      cases hcall.symm.trans new
    | hears call' may =>
      cases hown
      cases hcall.symm.trans call'
      exact .inr (.inl ((closed?_eq_some_iff may).mpr hmem))
    | @closes _ d r call' pending =>
      cases hown
      cases hcall.symm.trans call'
      by_cases hcd : c = d
      · exact .inr (.inl (congrArg some hcd.symm))
      · have hrest : c ∈ r.pending.erase d := (List.mem_erase_of_ne hcd).mpr hmem
        rw [afterClose_resume _ _ pending]
        refine .inl ⟨id, .removal { r with pending := r.pending.erase d }, ?_, hrest⟩
        dsimp only
        rw [if_neg (List.ne_nil_of_mem hrest)]
        exact Assoc.get?_put_self ..
    | abandons call' =>
      cases hown
      exact .inr (.inr ⟨id, call, rfl, hcall, hmem⟩)
    | uses => cases hown
  · exact .inl ⟨id, call, (h.get?_eq hown).trans hcall, hmem⟩

/-- A close is over only when a call waits for it. -/
theorem Happens.closing_of_closed {r : Traffic × Option Ending} (h : s.Happens now e r)
    (hc : e.closed? = some c) : s.Closing c := by
  cases h with
  | hears call may => exact ⟨_, _, call, (closed?_eq_some_iff may).mp hc⟩
  | closes call pending =>
    cases hc
    exact ⟨_, _, call, pending⟩
  | _ => cases hc

/-- **A close that is waited for was asked for**, if it was so before. -/
theorem Happens.closing_before {r : Traffic × Option Ending} (h : s.Happens now e r)
    (hc : r.1.Closing c) : s.Closing c ∨ c ∈ r.1.closes := by
  obtain ⟨i, call, hcall, hmem⟩ := hc
  by_cases hown : e.call? = some i
  · have hsearch {x : Pool × Progress Get Get.Result}
        (hcall : (s.afterSearch i x).1.calls.get? i = some call) :
        c ∈ (s.afterSearch i x).1.closes := by
      obtain ⟨p, g | r⟩ := x
      · cases (Assoc.get?_put_self ..).symm.trans hcall
        exact List.mem_append_right _ hmem
      · cases (Assoc.get?_erase_self ..).symm.trans hcall
    cases h with
    | refuses => exact .inl ⟨i, call, hcall, hmem⟩
    | queues =>
      cases hown
      exact .inr (hsearch hcall)
    | begins =>
      cases hown
      exact .inr (hsearch hcall)
    | orders =>
      cases hown
      rw [afterOrder_closing] at hcall ⊢
      dsimp only at hcall
      split at hcall
      · cases (Assoc.get?_erase_self ..).symm.trans hcall
      · cases (Assoc.get?_put_self ..).symm.trans hcall
        exact .inr (List.mem_append_right _ hmem)
    | hears =>
      cases hown
      exact .inr (hsearch hcall)
    | closes call' pending =>
      cases hown
      rw [afterClose_resume _ _ pending] at hcall
      dsimp only at hcall
      split at hcall
      · cases (Assoc.get?_erase_self ..).symm.trans hcall
      · cases (Assoc.get?_put_self ..).symm.trans hcall
        exact .inl ⟨i, _, call', List.mem_of_mem_erase hmem⟩
    | @abandons _ call' =>
      cases hown
      cases call' <;> cases (Assoc.get?_erase_self ..).symm.trans hcall
    | uses => cases hown
  · rw [h.get?_eq hown] at hcall
    exact .inl ⟨i, call, hcall, hmem⟩

/-! ## What becomes of a close -/

/-- **What becomes of a close that was asked for**: it is over, or a call waits for it, or the call
that waited for it was given up. -/
theorem mem_closes_iff (h : (idle settings walk).run es = some s) :
    c ∈ s.closes ↔
      c ∈ closed es ∨ s.Closing c ∨ (idle settings walk).Sometime es (GivesUpClose c) := by
  induction es using List.reverseRecOn generalizing s with
  | nil =>
    cases h
    refine iff_of_false List.not_mem_nil ?_
    simp [closed, not_sometime_nil, not_closing_idle]
  | append_singleton es x ih =>
    obtain ⟨now, e⟩ := x
    obtain ⟨u, o, hu, hstep⟩ := run_snoc_eq_some.mp h
    have hsu : u.Sound := Sound.run (.idle settings walk) hu
    have hdoes := hsu.happens hstep
    have hclosed : c ∈ closed (es ++ [(now, e)]) ↔ c ∈ closed es ∨ e.closed? = some c := by
      rw [closed_append, List.mem_append]
      simp [closed]
    have hsometime : (idle settings walk).Sometime (es ++ [(now, e)]) (GivesUpClose c) ↔
        (idle settings walk).Sometime es (GivesUpClose c) ∨ GivesUpClose c u now e := by
      rw [sometime_snoc_iff]
      simp [hu]
    rw [hclosed, hsometime]
    constructor
    · intro hc
      rcases hdoes.mem_closes hc with hc | hc
      · rcases (ih hu).mp hc with hc | hc | hc
        · exact .inl (.inl hc)
        · rcases hdoes.closing hc with hc | hc | hc
          · exact .inr (.inl hc)
          · exact .inl (.inr hc)
          · exact .inr (.inr (.inr hc))
        · exact .inr (.inr (.inl hc))
      · exact .inr (.inl hc)
    · -- What was asked for before stays on record.
      have hkeep (hc : c ∈ closed es ∨ u.Closing c ∨
          (idle settings walk).Sometime es (GivesUpClose c)) : c ∈ s.closes :=
        hdoes.closes_subset ((ih hu).mpr hc)
      rintro ((hc | hc) | hc | hc | hc)
      · exact hkeep (.inl hc)
      · exact hkeep (.inr (.inl (hdoes.closing_of_closed hc)))
      · rcases hdoes.closing_before hc with hc | hc
        · exact hkeep (.inr (.inl hc))
        · exact hc
      · exact hkeep (.inr (.inr hc))
      · obtain ⟨id, call, -, hcall, hmem⟩ := hc
        exact hkeep (.inr (.inl ⟨id, call, hcall, hmem⟩))

/-! ## Where connections are -/

/-- A connection whose close was asked for is not in the pool. -/
theorem Sound.not_holds_of_mem_closes (h : s.Sound) (hc : c ∈ s.closes) :
    s.pool.holds c = false := by
  rw [Bool.eq_false_iff]
  intro hholds
  obtain ⟨e, he, rfl, hp⟩ := h.tidy.holds_iff.mp hholds
  exact h.tidy.not_gone he hp ((h.closes _).mp hc)

/-- **A connection that was delivered** is in the pool, once, and nobody has asked for its close; or
it has left the pool, and its close was asked for. -/
theorem pooled_or_mem_closes (h : (idle settings walk).run es = some s) (hc : c ∈ delivered es) :
    ((∃! e, e ∈ s.pool.pooled ∧ e.id = c) ∧ c ∉ s.closes) ∨
      (∀ e ∈ s.pool.pooled, e.id ≠ c) ∧ c ∈ s.closes := by
  have hs : s.Sound := Sound.run (.idle settings walk) h
  obtain ⟨e, he, rfl⟩ := (mem_delivered_iff h).mp hc
  by_cases hgone : s.pool.Gone e.id
  · refine .inr ⟨?_, (hs.closes _).mpr hgone⟩
    intro f hf hid
    obtain ⟨hf, hp⟩ := mem_pooled.mp hf
    exact hs.tidy.not_gone hf hp (hid ▸ hgone)
  · have hp : e.pooled = true := by
      by_contra hp
      exact hgone ⟨e, he, rfl, by simpa using hp⟩
    refine .inl ⟨⟨e, ⟨mem_pooled.mpr ⟨he, hp⟩, rfl⟩, ?_⟩, fun hcl => hgone ((hs.closes _).mp hcl)⟩
    rintro f ⟨hf, hid⟩
    exact hs.tidy.eq_of_id (mem_pooled.mp hf).1 he hid

/-- **No connection is lost**: at no moment of any run is the close of a connection asked for that
is in the pool; and if no call is given up, then whenever no call is under way each connection that
was delivered is the connection of exactly one record in the pool, and nobody has asked for its
close, or it is in the pool no more, and it has been closed. -/
theorem owned_or_closed (settings : PoolSettings) (h : (idle settings walk).run es = some s) :
    (∀ c ∈ s.closes, s.pool.holds c = false) ∧
      ((∀ x ∈ es, ∀ id, x.2 ≠ .abandon id) → s.calls = [] → ∀ c ∈ delivered es,
        ((∃! e, e ∈ s.pool.pooled ∧ e.id = c) ∧ c ∉ s.closes) ∨
          (∀ e ∈ s.pool.pooled, e.id ≠ c) ∧ c ∈ closed es) := by
  have hs : s.Sound := Sound.run (.idle settings walk) h
  refine ⟨fun c => hs.not_holds_of_mem_closes, fun hes hquiet c hc => ?_⟩
  refine (pooled_or_mem_closes h hc).imp_right fun ⟨hout, hcloses⟩ => ⟨hout, ?_⟩
  rcases (mem_closes_iff h).mp hcloses with hclosed | ⟨id, call, hcall, -⟩ | hgiven
  · exact hclosed
  · rw [hquiet] at hcall
    cases hcall
  · obtain ⟨before, now, e, after, t, rfl, -, id, call, rfl, -⟩ := hgiven
    exact absurd rfl (hes (now, .abandon id) (by simp) id)

/-- Two connections for a pool that holds one: the first is taken out and closed to make room for
the second, which is in the pool. -/
theorem owned_or_closed_after_eviction :
    ∃ s, (idle ⟨1, .ofSecs 300, .ofSecs 30⟩).run
        [(.start, .search 0 ⟨"a", 22, some "u", none, none⟩),
          (.start, .answer 0 (.connected (.ok 0))),
          (.start, .search 1 ⟨"b", 22, some "u", none, none⟩), (.start, .answer 1 (.closed 0)),
          (.start, .answer 1 (.connected (.ok 1)))] = some s ∧
      s.calls = [] ∧ s.closes = [0] ∧ s.pool.holds 0 = false ∧
      ∃! e, e ∈ s.pool.pooled ∧ e.id = 1 := by
  obtain ⟨s, hs, hquiet, hcloses⟩ :
      ∃ s, (idle ⟨1, .ofSecs 300, .ofSecs 30⟩).run
          [(.start, .search 0 ⟨"a", 22, some "u", none, none⟩),
            (.start, .answer 0 (.connected (.ok 0))),
            (.start, .search 1 ⟨"b", 22, some "u", none, none⟩), (.start, .answer 1 (.closed 0)),
            (.start, .answer 1 (.connected (.ok 1)))] = some s ∧
        s.calls = [] ∧ s.closes = [0] :=
    ⟨_, rfl, rfl, rfl⟩
  obtain ⟨hout, howned⟩ := owned_or_closed _ hs
  refine ⟨s, hs, hquiet, hcloses, hout 0 (by simp [hcloses]), ?_⟩
  rcases howned (by simp) hquiet 1 (by decide) with ⟨hone, -⟩ | ⟨-, hclosed⟩
  · exact hone
  · exact absurd hclosed (by decide)

end Traffic

end RemoteShell
