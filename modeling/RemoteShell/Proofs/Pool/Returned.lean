import Mathlib.Data.List.Induction
import RemoteShell.Proofs.Pool.Exclusion

/-!
# What a search ends with

A connection leaves the pool before it is closed, so that a search that looks into the pool never
picks up one that is being closed.  But a search keeps what it has picked up: while it waits for a
sign of life, or for the close of another connection after it has pooled its own, an order or
another search may take the connection out of the pool and close it, and the search ends with it
all the same.

Nothing else goes wrong: a search ends with the connection that is pooled under its login and whose
close was not asked for, unless that connection was taken out in the meantime.

## Main definitions

* `Traffic.InHand`: a search means to end with a connection
* `Traffic.Loses`: an event takes a connection out of the pool which a search means to end with

## Main results

* `sometime_loses_of_gone`: what a search means to end with has left the pool only so
* `Loses.order_or_eviction`: the two ways to lose a connection
* `found_pooled_iff`: when a search ends with the connection that is in the pool
-/

namespace RemoteShell.Traffic

open Pool

variable {s t u : Traffic} {now : Instant} {e : Event} {o : Option Ending} {id : CallId}
  {c : ConnId} {g : Get} {es : List (Instant × Event)} {walk : Walk}

/-- A search means to end with a connection. -/
def InHand (s : Traffic) (id : CallId) (c : ConnId) : Prop :=
  ∃ g, s.calls.get? id = some (.search g) ∧ g.hand = some c

/-- **A search loses its connection**: an event about somebody else takes the connection out of the
pool while the search means to end with it. -/
def Loses (id : CallId) (c : ConnId) (s : Traffic) (now : Instant) (e : Event) : Prop :=
  s.InHand id c ∧ s.pool.holds c = true ∧ e.call? ≠ some id ∧
    ∃ t o, s.step now e = some (t, o) ∧ t.pool.Gone c

/-- Whoever means to end with a connection has passed the lock of its login. -/
theorem InHand.inside (h : s.InHand id c) (hs : s.Sound) :
    ∃ k, s.Inside k id ∧ s.pool.Knows c k := by
  obtain ⟨⟨caller, t, lock, phase⟩, hg, hhand⟩ := h
  have hfits := hs.fits _ (Assoc.mem_of_get? hg)
  cases phase with
  | probing d =>
    cases hhand
    exact ⟨_, ⟨_, hg, rfl, nofun⟩, hfits.1⟩
  | trimming d made =>
    cases hhand
    exact ⟨_, ⟨_, hg, rfl, nofun⟩, hfits⟩
  | _ => cases hhand

/-- A search that comes to its next wait with a connection that has left the pool had it in hand
before, and it had left the pool before. -/
theorem inHand_afterSearch {p : Pool} {x : Pool × Progress Get Get.Result} (hx : g.Turn p x)
    (hi : (s.afterSearch id x).1.InHand id c) (hc : x.1.Gone c) :
    g.hand = some c ∧ p.Gone c := by
  obtain ⟨g', hg', hhand⟩ := hi
  cases hx with
  | waits lands =>
    rw [afterSearch, Assoc.get?_put_self] at hg'
    cases hg'
    exact lands.kept c hhand hc
  | @ends r found =>
    obtain ⟨q, hq, -⟩ := g.finish_eq r p
    rw [hq, afterSearch, Assoc.get?_erase_self] at hg'
    cases hg'

/-- **Whoever means to end with a connection that has left the pool meant so before**, and unless
the event is about somebody else, the connection had left the pool before. -/
theorem Happens.inHand {r : Traffic × Option Ending} (h : s.Happens now e r)
    (hi : r.1.InHand id c) (hc : r.1.pool.Gone c) :
    s.InHand id c ∧ (e.call? = some id → s.pool.Gone c) := by
  by_cases hown : e.call? = some id
  · cases h with
    | refuses new =>
      obtain ⟨g, hg, -⟩ := hi
      cases hown
      rw [new] at hg
      cases hg
    | queues =>
      obtain ⟨g, hg, hhand⟩ := hi
      cases hown
      rw [afterSearch, Assoc.get?_put_self] at hg
      cases hg
      cases hhand
    | begins _ _ does =>
      cases hown
      rw [pool_afterSearch] at hc
      cases (inHand_afterSearch does hi hc).1
    | orders =>
      obtain ⟨g, hg, -⟩ := hi
      cases hown
      rw [afterOrder_closing] at hg
      dsimp only at hg
      split at hg
      · simp at hg
      · simp at hg
    | hears call _ notes does =>
      cases hown
      rw [pool_afterSearch] at hc
      obtain ⟨hhand, hgone⟩ := inHand_afterSearch does hi hc
      exact ⟨⟨_, call, hhand⟩, fun _ => notes.gone_iff.mp hgone⟩
    | closes _ pending =>
      obtain ⟨g, hg, -⟩ := hi
      cases hown
      rw [afterClose_resume _ _ pending] at hg
      dsimp only at hg
      split at hg
      · simp at hg
      · simp at hg
    | @abandons i d =>
      obtain ⟨g, hg, -⟩ := hi
      cases hown
      cases d <;> simp [abandon] at hg
    | uses => cases hown
  · obtain ⟨g, hg, hhand⟩ := hi
    rw [h.get?_eq hown] at hg
    exact ⟨⟨g, hg, hhand⟩, fun he => absurd he hown⟩

theorem gone_of_sometime_loses (hs : s.Sound) (h : s.run es = some t)
    (hl : s.Sometime es (Loses id c)) : t.pool.Gone c := by
  induction es using List.reverseRecOn generalizing t with
  | nil => exact absurd hl (not_sometime_nil s _)
  | append_singleton es x ih =>
    obtain ⟨now, e⟩ := x
    obtain ⟨u, o, hu, hstep⟩ := run_snoc_eq_some.mp h
    rcases sometime_snoc_iff.mp hl with hl | ⟨v, hv, -, -, -, w, o', hw, hgone⟩
    · exact (hs.run hu).gone hstep (ih hu hl)
    · obtain rfl : u = v := Option.some.inj (hu.symm.trans hv)
      obtain ⟨rfl, -⟩ := Prod.mk.inj (Option.some.inj (hstep.symm.trans hw))
      exact hgone

theorem sometime_loses_of_gone (hs : s.Sound) (h : s.run es = some t) (hfirst : ¬ s.pool.Gone c)
    (hi : t.InHand id c) (hc : t.pool.Gone c) : s.Sometime es (Loses id c) := by
  induction es using List.reverseRecOn generalizing t with
  | nil =>
    cases h
    exact absurd hc hfirst
  | append_singleton es x ih =>
    obtain ⟨now, e⟩ := x
    obtain ⟨u, o, hu, hstep⟩ := run_snoc_eq_some.mp h
    have hsu : u.Sound := hs.run hu
    obtain ⟨hiu, hown⟩ := (hsu.happens hstep).inHand hi hc
    rw [sometime_snoc_iff]
    by_cases hcu : u.pool.Gone c
    · exact .inl (ih hu hiu hcu)
    · -- It leaves the pool with this event, which is not about the search itself.
      obtain ⟨k, -, hk⟩ := hiu.inside hsu
      exact .inr ⟨u, hu, hiu, (hsu.tidy.holds_iff_not_gone hk).mpr hcu, fun he => hcu (hown he),
        t, o, hstep, hc⟩

/-- What a turn takes out of the pool its search waits to see closed. -/
theorem exists_lands_of_gone {p : Pool} {x : Pool × Progress Get Get.Result} (hx : g.Turn p x)
    (hfirst : ¬ p.Gone c) (hc : x.1.Gone c) :
    ∃ φ q, x = (q, .waits { g with phase := φ }) ∧ g.Lands p φ q ∧
      c ∈ Get.closing { g with phase := φ } := by
  cases hx with
  | @waits φ q lands =>
    exact ⟨φ, q, rfl, lands, (lands.takes.gone_iff.mp hc).resolve_left hfirst⟩
  | @ends r =>
    obtain ⟨q, hq, hentries, -⟩ := g.finish_eq r p
    rw [hq, (TakesOut.of_entries_eq hentries).gone_iff] at hc
    simp [hfirst] at hc

/-- Another search takes a connection out that is in hand only to make room: to replace it, it would
have to be inside under the same login. -/
theorem evicts_of_turn {p : Pool} {x : Pool × Progress Get Get.Result} {i : CallId}
    (hx : g.Turn p x) (ht : (s.afterSearch i x).1.Sound) (hi : (s.afterSearch i x).1.InHand id c)
    (hne : i ≠ id) (hfirst : ¬ p.Gone c) (hc : x.1.Gone c) :
    ∃ g', (s.afterSearch i x).1.calls.get? i = some (.search g') ∧
      (g'.phase = .clearing c ∨ ∃ made, g'.phase = .trimming c made) := by
  obtain ⟨φ, q, rfl, lands, hmem⟩ := exists_lands_of_gone hx hfirst hc
  have hcall : (s.afterSearch i (q, .waits { g with phase := φ })).1.calls.get? i =
      some (.search { g with phase := φ }) := Assoc.get?_put_self ..
  refine ⟨{ g with phase := φ }, hcall, ?_⟩
  cases φ with
  | clearing d => exact .inl (by simpa [Get.closing, eq_comm] using hmem)
  | trimming d made => exact .inr ⟨made, by simpa [Get.closing, eq_comm] using hmem⟩
  | replacing d =>
    obtain rfl : c = d := by simpa [Get.closing] using hmem
    obtain ⟨k, hinside, e, he, hid, hkey⟩ := hi.inside ht
    obtain ⟨f, hf, hfid, hfkey⟩ := lands.takes.knows (lands.own c rfl)
    rw [ht.tidy.eq_of_id he hf (hid.trans hfid.symm)] at hkey
    exact absurd (ht.eq_of_inside ⟨_, hcall, hfkey.symm.trans hkey, by simp⟩ hinside) hne
  | _ => cases hmem

/-- **A connection in hand is lost to an order, or to another search that makes room.** -/
theorem Loses.order_or_eviction (h : Loses id c s now e) (hs : s.Sound) :
    (∃ i o, e = .order i o) ∨
      ∃ i t o g, s.step now e = some (t, o) ∧ t.calls.get? i = some (.search g) ∧ i ≠ id ∧
        (g.phase = .clearing c ∨ ∃ made, g.phase = .trimming c made) := by
  obtain ⟨hi, hholds, hown, t, o, hstep, hc⟩ := h
  obtain ⟨k, -, hknows⟩ := hi.inside hs
  have hfirst : ¬ s.pool.Gone c := (hs.tidy.holds_iff_not_gone hknows).mp hholds
  have ht : t.Sound := hs.step hstep
  have hdoes := hs.happens hstep
  have hi' : t.InHand id c := by
    obtain ⟨g, hg, hhand⟩ := hi
    exact ⟨g, (hdoes.get?_eq hown).trans hg, hhand⟩
  generalize hr : (t, o) = r at hdoes
  obtain rfl : r.1 = t := hr ▸ rfl
  cases hdoes with
  | refuses => exact absurd hc hfirst
  | queues => exact absurd hc hfirst
  | @begins i _ _ _ _ does =>
    have hne : i ≠ id := fun hid => hown (congrArg some hid)
    rw [pool_afterSearch] at hc
    obtain ⟨g, hcall, hphase⟩ := evicts_of_turn does ht hi' hne hfirst hc
    exact .inr ⟨i, _, _, g, hstep, hcall, hne, hphase⟩
  | orders => exact .inl ⟨_, _, rfl⟩
  | @hears i _ _ _ _ _ notes does =>
    have hne : i ≠ id := fun hid => hown (congrArg some hid)
    rw [pool_afterSearch] at hc
    obtain ⟨g, hcall, hphase⟩ :=
      evicts_of_turn does ht hi' hne (fun hgone => hfirst (notes.gone_iff.mp hgone)) hc
    exact .inr ⟨i, _, _, g, hstep, hcall, hne, hphase⟩
  | closes _ pending =>
    rw [afterClose_resume _ _ pending] at hc
    simp [(takesOut_noteClosed _ _).gone_iff, hfirst] at hc
  | @abandons i d => cases d <;> exact absurd hc hfirst
  | uses d => simp [(TakesOut.touch s.pool d now).gone_iff, hfirst] at hc

/-! ## The end of a search -/

theorem found_afterSearch {p : Pool} {x : Pool × Progress Get Get.Result} (hx : g.Turn p x)
    (hf : (s.afterSearch id x).2 = some (.found (.ok c))) :
    g.phase ≠ .queued ∧ p.Knows c g.target.login ∧ (p.Gone c → g.hand = some c) ∧
      x.1.entries = p.entries := by
  cases hx with
  | waits lands => cases hf
  | @ends r found =>
    obtain ⟨q, hq, hentries, -⟩ := g.finish_eq r p
    rw [hq] at hf ⊢
    obtain rfl : r = .ok c := by
      cases hf
      rfl
    obtain ⟨hphase, hknows, hhand⟩ := found c rfl
    exact ⟨hphase, hknows, hhand, hentries⟩

/-- A search ends with a connection only when it hears an answer, and it has had the connection in
hand if that has left the pool. -/
theorem Happens.found {r : Traffic × Option Ending} (h : s.Happens now e r)
    (hr : r.2 = some (.found (.ok c))) :
    ∃ id a g, e = .answer id a ∧ s.calls.get? id = some (.search g) ∧
      r.1.pool.Knows c g.target.login ∧ (r.1.pool.Gone c ↔ s.pool.Gone c) ∧
      (s.pool.Gone c → s.InHand id c) := by
  cases h with
  | refuses => cases hr
  | queues => cases hr
  | begins _ _ does => exact absurd rfl (found_afterSearch does hr).1
  | @orders _ _ cs =>
    cases cs <;> cases hr
  | @hears id a g p call _ notes does =>
    obtain ⟨-, hknows, hhand, hentries⟩ := found_afterSearch does hr
    have htakes := TakesOut.of_entries_eq hentries
    refine ⟨id, a, g, rfl, call, ?_, ?_, fun hc => ⟨g, call, hhand (notes.gone_iff.mpr hc)⟩⟩
    · rw [pool_afterSearch]
      exact htakes.knows hknows
    · rw [pool_afterSearch, htakes.gone_iff, notes.gone_iff]
      simp
  | closes => exact absurd hr (afterClose_ne_found _ _ _ _)
  | abandons => cases hr
  | uses => cases hr

/-- **What a search ends with**: the connection that is pooled under its login, and whose close was
not asked for, unless the search has lost it on the way. -/
theorem found_pooled_iff (settings : PoolSettings) (h : (idle settings walk).run es = some s)
    (hend : s.step now e = some (t, some (.found (.ok c)))) :
    ∃ id a g, e = .answer id a ∧ s.calls.get? id = some (.search g) ∧
      (((t.pool.lookup g.target.login).map (·.id) = some c ∧ c ∉ t.closes) ↔
        ¬ (idle settings walk).Sometime es (Loses id c)) := by
  have hidle : (idle settings walk).Sound := .idle settings walk
  have hs : s.Sound := hidle.run h
  have ht : t.Sound := hs.step hend
  obtain ⟨id, a, g, he, hg, hknows, hgone, hhand⟩ := (hs.happens hend).found rfl
  refine ⟨id, a, g, he, hg, ?_⟩
  have hloses : (idle settings walk).Sometime es (Loses id c) ↔ t.pool.Gone c := by
    rw [hgone]
    refine ⟨gone_of_sometime_loses hidle h, fun hc => ?_⟩
    exact sometime_loses_of_gone hidle h (by simp [idle, Pool.empty, Gone]) (hhand hc) hc
  rw [hloses, ht.closes]
  refine ⟨And.right, fun hc => ⟨?_, hc⟩⟩
  obtain ⟨e, hmem, hid, hkey⟩ := hknows
  have hpooled : e.pooled = true := by
    by_contra hp
    exact hc ⟨e, hmem, hid, by simpa using hp⟩
  rw [ht.tidy.lookup_eq_some_iff.mpr ⟨hmem, hpooled, hkey⟩, Option.map_some, hid]

/-- Two searches for one login, of which the second waits for a sign of life. -/
def twoSearches : List (Instant × Event) :=
  [(.start, .search 0 ⟨"a", 22, some "u", none, none⟩),
    (.start, .answer 0 (.connected (.ok 0))),
    (.start, .search 1 ⟨"a", 22, some "u", none, none⟩)]

/-- If nothing happens meanwhile, the second search ends with the connection of the first, and has
not lost it. -/
theorem found_pooled_of_two_searches :
    ∃ s t, (idle ⟨2, .ofSecs 300, .ofSecs 30⟩).run twoSearches = some s ∧
      s.step .start (.answer 1 (.alive true)) = some (t, some (.found (.ok 0))) ∧
      ¬ (idle ⟨2, .ofSecs 300, .ofSecs 30⟩).Sometime twoSearches (Loses 1 0) := by
  obtain ⟨s, t, hs, hend, hcall, hlookup, hcloses⟩ :
      ∃ s t, (idle ⟨2, .ofSecs 300, .ofSecs 30⟩).run twoSearches = some s ∧
        s.step .start (.answer 1 (.alive true)) = some (t, some (.found (.ok 0))) ∧
        s.calls.get? 1 =
          some (.search ⟨1, ⟨"a", 22, some "u", none, none⟩, 0, .probing 0⟩) ∧
        (t.pool.lookup ⟨"u", "a", 22⟩).map (·.id) = some 0 ∧ t.closes = [] :=
    ⟨_, _, rfl, rfl, rfl, rfl, rfl⟩
  refine ⟨s, t, hs, hend, ?_⟩
  obtain ⟨id, a, g, he, hg, hiff⟩ := found_pooled_iff _ hs hend
  cases he
  cases hcall.symm.trans hg
  exact hiff.mp ⟨hlookup, by simp [hcloses]⟩

/-- **A search may end with a connection that is being closed**: while it waits for a sign of life,
an order takes the connection out of the pool and asks for its close, and the connection answers. -/
theorem found_closed_after_order :
    ∃ s t, (idle ⟨2, .ofSecs 300, .ofSecs 30⟩).run (twoSearches ++ [(.start, .order 2 .all)]) =
        some s ∧
      s.step .start (.answer 1 (.alive true)) = some (t, some (.found (.ok 0))) ∧
      t.pool.lookup ⟨"u", "a", 22⟩ = none ∧ t.closes = [0] :=
  ⟨_, _, rfl, rfl, rfl, rfl⟩

end RemoteShell.Traffic
