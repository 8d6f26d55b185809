import Mathlib.Data.List.Induction
import RemoteShell.Proofs.Pool.Growth
import RemoteShell.Proofs.Pool.Soundness

/-!
# The pool does not overflow

Searches for different logins make room before they connect and pool their connections afterwards,
in any order, so that the pool may come to hold more connections than the settings allow.  Each
search that overfills the pool sets this right itself: it goes on to take connections out, one after
another, until the pool is not too full any more.  Such a search accounts for one connection too
many.  So the pool never holds more connections than the settings allow and the searches account for
that are still taking others out, and when there are none of them it holds no more than the settings
allow.  A pool that is allowed none holds one: the one that was made last is kept.

## Main definitions

* `Pool.capacity`: how many connections a pool is allowed
* `Get.excess`, `Traffic.excess`: how many more a search accounts for, and all calls

## Main results

* `Get.trim_pooled_le`, `Get.resume_pooled_le`: what a turn does to the number of pooled connections
* `WithinBounds.step`, `WithinBounds.run`: one event and many
* `pooled_within_capacity`: the number of connections when no search is taking others out
-/

namespace RemoteShell

namespace Pool

variable {p q : Pool} {c : ConnId} {cs : List ConnId} {e : Entry} {g : Get} {now : Instant}
  {n : Nat}

/-- **How many connections a pool is allowed**: as many as the settings say, and at least one. -/
def capacity (s : PoolSettings) : Nat := max 1 s.maxConnections

theorem limit_le_capacity (p : Pool) (keep : Option Login) :
    p.limit keep ≤ capacity p.settings := by
  unfold limit capacity
  split <;> omega

/-! ## Counting pooled connections -/

/-- Of the pooled connections those stay that are not taken out. -/
theorem TakesOut.length_pooled (h : p.TakesOut cs q) :
    q.pooled.length = (p.pooled.filter fun e => decide (e.id ∉ cs)).length := by
  obtain ⟨f, hf, hkeep⟩ := h.change
  rw [pooled, hf, List.filter_map, List.length_map, pooled, List.filter_filter]
  congr 1
  refine List.filter_congr fun e he => ?_
  have := (hkeep e he).2.2
  rw [Bool.eq_iff_iff]
  simp only [Function.comp, this, Bool.and_eq_true, decide_eq_true_eq]
  exact and_comm

theorem TakesOut.length_pooled_le (h : p.TakesOut cs q) : q.pooled.length ≤ p.pooled.length := by
  rw [h.length_pooled]
  exact List.length_filter_le _ _

theorem TakesOut.length_pooled_lt (h : p.TakesOut cs q) (he : e ∈ p.pooled) (hc : e.id ∈ cs) :
    q.pooled.length < p.pooled.length := by
  rw [h.length_pooled, List.length_filter_lt_length_iff_exists]
  exact ⟨e, he, by simpa using hc⟩

theorem leastRecent_eq_none {es : List Entry} (h : leastRecent es = none) : es = [] := by
  cases es with
  | nil => rfl
  | cons e es =>
    unfold leastRecent at h
    split at h
    · cases h
    · split at h <;> cases h

/-- When nothing can be taken out, the pool is not too full. -/
theorem length_pooled_le_of_evict?_eq_none {keep : Option Login} (ht : p.Tidy)
    (h : p.evict? keep = none) : p.pooled.length ≤ capacity p.settings := by
  unfold evict? at h
  split at h
  · next hle => exact Nat.le_trans hle (p.limit_le_capacity keep)
  · -- All that is pooled is under the login that is to be kept, so it is one connection.
    have hkey : ∀ e ∈ p.pooled, some e.key = keep := by
      simpa [List.filter_eq_nil_iff] using leastRecent_eq_none (Option.map_eq_none_iff.mp h)
    have hone : p.pooled.length ≤ 1 := by
      have hnodup : p.pooled.Nodup := ht.nodup_pooled
      match hp : p.pooled with
      | [] => simp
      | [e] => simp
      | e :: f :: l =>
        rw [hp] at hnodup hkey
        have he := mem_pooled.mp (hp ▸ List.mem_cons_self : e ∈ p.pooled)
        have hf := mem_pooled.mp (hp ▸ List.mem_cons_of_mem e List.mem_cons_self : f ∈ p.pooled)
        have hsame : some e.key = some f.key :=
          (hkey e (by simp)).trans (hkey f (by simp)).symm
        have : e = f := ht.logins e he.1 f hf.1 he.2 hf.2 (Option.some.inj hsame)
        simp [this] at hnodup
    exact Nat.le_trans hone (Nat.le_max_left 1 _)

/-! ## What a turn does -/

namespace Get

/-- Does a search take connections out after it has pooled its own? -/
def trims (g : Get) : Bool :=
  match g.phase with
  | .trimming .. => true
  | _ => false

/-- **How many connections more than allowed a search accounts for**: one as long as it takes others
out after it has pooled its own. -/
def excess (g : Get) : Nat := g.trims.toNat

/-- What a search accounts for that has come to its next wait or ended. -/
def excessThen : Progress Get Result → Nat
  | .waits g => g.excess
  | .ends _ => 0

/-- A search that takes connections out to set right the number of them takes one out, or there
are not too many. -/
theorem trim_pooled_le {made : ConnId} (ht : p.Tidy)
    (h : p.pooled.length ≤ capacity p.settings + (n + 1)) :
    (g.trim made p).1.pooled.length ≤
      capacity p.settings + (n + excessThen (g.trim made p).2) := by
  unfold trim
  split
  · next v q hq =>
    obtain ⟨⟨hmem, hp, -⟩, -⟩ := evict?_eq_some hq
    have hlt := (TakesOut.evict hq).length_pooled_lt (mem_pooled.mpr ⟨hmem, hp⟩) (by simp)
    have hone : excessThen (g.goOn (.trimming v.id made) q).2 = 1 := rfl
    rw [hone]
    exact Nat.le_trans (Nat.le_of_lt hlt) h
  · next hnone =>
    have hle := length_pooled_le_of_evict?_eq_none ht hnone
    exact Nat.le_trans hle (Nat.le_add_right _ _)

/-- Nothing is pooled in the second part of a turn. -/
theorem Turn.length_pooled_le {x : Pool × Progress Get Result} (h : g.Turn p x) :
    x.1.pooled.length ≤ p.pooled.length := by
  cases h with
  | waits lands => exact lands.takes.length_pooled_le
  | @ends r =>
    obtain ⟨q, hq, hentries, -⟩ := g.finish_eq r p
    rw [hq]
    exact (TakesOut.of_entries_eq hentries).length_pooled_le

/-- A search that does not wait for a new connection pools none. -/
theorem Hears.length_pooled_le (h : g.Hears p q) (hg : g.phase ≠ .connecting) :
    q.pooled.length ≤ p.pooled.length := by
  cases h with
  | keeps takes => exact takes.length_pooled_le
  | pools phase => exact absurd phase hg

/-- **A turn accounts for what it adds to the pool.** -/
theorem resume_pooled_le (ht : p.Tidy) (hf : g.Fits p) {a : Answer}
    (ha : (Call.search g).mayHear p a = true) (now : Instant)
    (h : p.pooled.length ≤ capacity p.settings + (n + g.excess)) :
    (g.resume a now p).1.pooled.length ≤
      capacity p.settings + (n + excessThen (g.resume a now p).2) := by
  -- A turn that neither pools a connection nor goes on trimming adds nothing.
  have hother (hg : g.phase ≠ .connecting) (hx : g.excess = 0) :
      (g.resume a now p).1.pooled.length ≤
        capacity p.settings + (n + excessThen (g.resume a now p).2) := by
    obtain ⟨q, hears, turn⟩ := resume_turn ht hf ha now
    have hq := hears.length_pooled_le hg
    have hr := turn.length_pooled_le
    omega
  obtain ⟨caller, t, lock, phase⟩ := g
  cases phase with
  | connecting =>
    cases a with
    | connected r =>
      cases r with
      | error f => exact Nat.le_trans h (Nat.add_le_add_left (Nat.le_refl n) _)
      | ok c =>
        have hnew : p.entry? c = none := Option.isNone_iff_eq_none.mp ha
        have hone : (p.insert c t now).pooled.length = p.pooled.length + 1 := by
          rw [pooled_insert hf, List.length_append, List.length_singleton]
        refine trim_pooled_le (ht.insert hf hnew) ?_
        rw [hone]
        exact Nat.succ_le_succ h
    | _ => cases ha
  | trimming v made =>
    cases a with
    | closed m =>
      have htakes := takesOut_noteClosed p v
      rw [← (Grows.noteClosed p v).settings] at h ⊢
      exact trim_pooled_le (htakes.tidy ht) (Nat.le_trans htakes.length_pooled_le h)
    | _ => cases ha
  | queued => exact hother nofun rfl
  | probing c => exact hother nofun rfl
  | replacing c => exact hother nofun rfl
  | clearing c => exact hother nofun rfl

end Get

/-- Is a call a search that takes connections out after it has pooled its own? -/
def Call.trims : Call → Bool
  | .search g => g.trims
  | .removal _ => false

end Pool

namespace Traffic

open Pool

variable {s t u : Traffic} {now : Instant} {e : Event} {o : Option Ending} {id : CallId}
  {c : ConnId} {g : Get} {es : List (Instant × Event)} {calls : Assoc CallId Call}
  {settings : PoolSettings} {walk : Walk}

/-- **How many connections more than allowed calls account for.** -/
def excess (calls : Assoc CallId Call) : Nat := calls.countP fun x => x.2.trims

theorem excess_append (calls : Assoc CallId Call) (id : CallId) (call : Call) :
    excess (calls ++ [(id, call)]) = excess calls + call.trims.toNat := by
  rw [excess, excess, List.countP_append, List.countP_singleton]
  cases call.trims <;> rfl

theorem excess_eq {call : Call} (hk : calls.Keyed) (hc : calls.get? id = some call) :
    excess calls = excess (calls.erase id) + call.trims.toNat := by
  rw [← excess_append _ id call, excess, excess, (hk.perm_cons_erase hc).countP_eq]
  exact (List.perm_append_singleton (id, call) (calls.erase id)).symm.countP_eq _

theorem excess_put (calls : Assoc CallId Call) (id : CallId) (call : Call) :
    excess (calls.put id call) = excess (calls.erase id) + call.trims.toNat :=
  excess_append ..

/-- The pool holds no more connections than it is allowed and its calls account for. -/
def WithinBounds (s : Traffic) : Prop :=
  s.pool.pooled.length ≤ capacity s.pool.settings + excess s.calls

theorem excess_afterSearch (s : Traffic) (id : CallId) (x : Pool × Progress Get Get.Result) :
    excess (s.afterSearch id x).1.calls = excess (s.calls.erase id) + Get.excessThen x.2 := by
  obtain ⟨p, g | r⟩ := x
  · exact excess_put ..
  · rfl

theorem excess_removal (calls : Assoc CallId Call) (id : CallId) (cs : List ConnId) (n : Nat) :
    excess (if cs = [] then calls.erase id else calls.put id (.removal ⟨cs, n⟩)) =
      excess (calls.erase id) := by
  split
  · rfl
  · exact excess_put ..

/-- **One event keeps the pool within its bounds**, unless a call is given up. -/
theorem WithinBounds.step {r : Traffic × Option Ending} (hb : s.WithinBounds) (hs : s.Sound)
    (hstep : s.step now e = some r) (he : ∀ id, e ≠ .abandon id) : r.1.WithinBounds := by
  have hsettings : r.1.pool.settings = s.pool.settings := (grows_step hstep).settings
  have hdoes := hs.happens hstep
  rw [WithinBounds, hsettings]
  unfold WithinBounds at hb
  cases hdoes with
  | refuses => exact hb
  | @queues id t new =>
    rw [excess_afterSearch, Assoc.erase_of_get?_eq_none new]
    exact hb
  | @begins id t x new turn does =>
    have hle : x.1.pooled.length ≤ s.pool.pooled.length := does.length_pooled_le
    rw [excess_afterSearch, Assoc.erase_of_get?_eq_none new, pool_afterSearch]
    omega
  | @orders id o cs q new takes =>
    have hle := takes.length_pooled_le
    rw [afterOrder_closing, excess_removal, Assoc.erase_of_get?_eq_none new]
    exact Nat.le_trans hle hb
  | @hears id a g p call may =>
    rw [excess_eq hs.keyed call] at hb
    rw [excess_afterSearch, pool_afterSearch]
    exact Get.resume_pooled_le hs.tidy (hs.fits _ (Assoc.mem_of_get? call)) may now hb
  | @closes id c r call pending =>
    have hle := (takesOut_noteClosed s.pool c).length_pooled_le
    rw [excess_eq hs.keyed call] at hb
    rw [afterClose_resume _ _ pending, excess_removal]
    exact Nat.le_trans hle hb
  | abandons => exact absurd rfl (he _)
  | uses c => exact Nat.le_trans (TakesOut.touch s.pool c now).length_pooled_le hb

/-- **The pool stays within its bounds** if no call is given up. -/
theorem WithinBounds.run (h : (idle settings walk).run es = some s)
    (hes : ∀ x ∈ es, ∀ id, x.2 ≠ .abandon id) : s.WithinBounds := by
  induction es using List.reverseRecOn generalizing s with
  | nil =>
    cases h
    exact Nat.zero_le _
  | append_singleton es x ih =>
    obtain ⟨now, e⟩ := x
    obtain ⟨u, o, hu, hstep⟩ := run_snoc_eq_some.mp h
    have hbefore : u.WithinBounds := ih hu fun x hx => hes x (List.mem_append_left _ hx)
    exact hbefore.step (Sound.run (.idle settings walk) hu) hstep (hes (now, e) (by simp))

/-- **The pool does not overflow**: if no call is given up, then at every moment the pool holds no
more connections than the settings allow, and at least one is allowed, except for those that
searches account for which have pooled a connection and are still taking others out; and so, when
there is no such search, no more than the settings allow. -/
theorem pooled_within_capacity (settings : PoolSettings)
    (h : (idle settings walk).run es = some s) (hes : ∀ x ∈ es, ∀ id, x.2 ≠ .abandon id) :
    s.pool.pooled.length ≤ max 1 settings.maxConnections + excess s.calls ∧
      ((∀ id g, s.calls.get? id = some (.search g) → ∀ v made, g.phase ≠ .trimming v made) →
        s.pool.pooled.length ≤ max 1 settings.maxConnections) := by
  have hs : s.Sound := Sound.run (.idle settings walk) h
  have hb : s.pool.pooled.length ≤ max 1 settings.maxConnections + excess s.calls := by
    have := WithinBounds.run h hes
    rwa [WithinBounds, settings_run h] at this
  refine ⟨hb, fun hsettled => ?_⟩
  have hnone : excess s.calls = 0 := by
    refine List.countP_eq_zero.mpr fun x hx => ?_
    obtain ⟨id, call⟩ := x
    rw [Bool.not_eq_true]
    cases call with
    | removal r => rfl
    | search g =>
      have hphase := hsettled id g (hs.keyed.get?_eq_some_iff.mpr hx)
      obtain ⟨caller, t, lock, phase⟩ := g
      cases phase with
      | trimming v made => exact absurd rfl (hphase v made)
      | _ => rfl
  rwa [hnone] at hb

/-- Two searches make room in an empty pool that is allowed no connection, and both connect: the
first keeps its connection, and the second takes it out. -/
theorem within_capacity_of_two_searches :
    ∃ s, (idle ⟨0, .ofSecs 300, .ofSecs 30⟩).run
        [(.start, .search 0 ⟨"a", 22, some "u", none, none⟩),
          (.start, .search 1 ⟨"b", 22, some "u", none, none⟩),
          (.start, .answer 0 (.connected (.ok 0))), (.start, .answer 1 (.connected (.ok 1))),
          (.start, .answer 1 (.closed 0))] = some s ∧
      s.calls = [] ∧ s.closes = [0] ∧ s.pool.pooled.length ≤ 1 := by
  obtain ⟨s, hs, hquiet, hcloses⟩ :
      ∃ s, (idle ⟨0, .ofSecs 300, .ofSecs 30⟩).run
          [(.start, .search 0 ⟨"a", 22, some "u", none, none⟩),
            (.start, .search 1 ⟨"b", 22, some "u", none, none⟩),
            (.start, .answer 0 (.connected (.ok 0))), (.start, .answer 1 (.connected (.ok 1))),
            (.start, .answer 1 (.closed 0))] = some s ∧
        s.calls = [] ∧ s.closes = [0] :=
    ⟨_, rfl, rfl, rfl⟩
  refine ⟨s, hs, hquiet, hcloses, (pooled_within_capacity _ hs (by simp)).2 ?_⟩
  rintro id g hg
  rw [hquiet] at hg
  cases hg

end Traffic

end RemoteShell
