import RemoteShell.Proofs.Pool.Turns

/-!
# Soundness of traffic

Whatever happens on a pool, and in whatever order, the pool fits the calls that are under way on it:
each call finds what it relies on, the locks have the calls as their users, and the connections that
have left the pool are those whose close was asked for.

## Main definitions

* `Traffic.Happens`: what an event can do, by what the turns of calls can do
* `Traffic.Consistent`, `Traffic.Sound`: the pool fits the calls

## Main results

* `Sound.happens`: an event does nothing else
* `Sound.step`, `Sound.run`: traffic stays sound
-/

namespace RemoteShell

open Cells (User Guarded)

namespace Pool

/-- A search is a user of the lock of its login. -/
def Get.user (g : Get) : User Login :=
  ⟨g.target.login, g.caller, g.lock, decide (g.phase ≠ .queued)⟩

/-- A search whose turn has come is one that has passed the lock. -/
def Get.within (g : Get) : User Login := { g.user with inside := true }

/-- The user of a lock that a call is. -/
def Call.user? : Call → Option (User Login)
  | .search g => some g.user
  | .removal _ => none

/-- What a call relies on while it waits. -/
def Call.Fits (p : Pool) : Call → Prop
  | .search g => g.Fits p
  | .removal _ => True

theorem Get.within_eq_user {g : Get} (h : g.phase ≠ .queued) : g.within = g.user := by
  simp [within, user, h]

theorem Get.user_of_phase {g : Get} {φ : Get.Phase} (h : φ ≠ .queued) :
    Get.user { g with phase := φ } = g.within := by
  simp [within, user, h]

theorem Get.Fits.takes {g : Get} {p q : Pool} {cs : List ConnId} (h : g.Fits p)
    (ht : p.TakesOut cs q) : g.Fits q := by
  obtain ⟨caller, t, lock, phase⟩ := g
  cases phase with
  | queued => trivial
  | probing c => exact ⟨ht.knows h.1, ht.only h.2⟩
  | replacing c => exact ht.vacant h
  | clearing c => exact ht.vacant h
  | connecting => exact ht.vacant h
  | trimming c made => exact ht.knows h

/-- A search is not disturbed by a new connection under another login, and not at all while it
queues. -/
theorem Get.Fits.insert {g : Get} {p : Pool} {c : ConnId} {t : Target} {now : Instant}
    (h : g.Fits p) (hv : p.Vacant t.login) (hk : g.phase ≠ .queued → g.target.login ≠ t.login) :
    g.Fits (p.insert c t now) := by
  obtain ⟨caller, t', lock, phase⟩ := g
  cases phase with
  | queued => trivial
  | probing c => exact ⟨h.1.insert hv, h.2.insert hv (hk nofun)⟩
  | replacing c => exact Vacant.insert hv (hk nofun) h
  | clearing c => exact Vacant.insert hv (hk nofun) h
  | connecting => exact Vacant.insert hv (hk nofun) h
  | trimming c made => exact Knows.insert hv h

/-- A search that ends gives its lock back, and nothing else becomes of the pool. -/
theorem Get.finish_eq (g : Get) (r : Get.Result) (p : Pool) :
    ∃ q, g.finish r p = (q, .ends r) ∧ q.entries = p.entries ∧ q.counters = p.counters ∧
      ∀ us, Guarded p.locks (us ++ [g.within]) → Guarded q.locks us := by
  cases r with
  | ok c => exact ⟨_, rfl, rfl, rfl, fun us h => h.release⟩
  | error f => exact ⟨_, rfl, rfl, rfl, fun us h => h.release.retire _ _⟩

end Pool

namespace Traffic

open Pool

variable {s t : Traffic} {now : Instant} {e : Event} {p q : Pool} {calls : Assoc CallId Call}
  {us w : List (User Login)} {closes cs : List ConnId} {id : CallId} {g : Get}

/-- The users of the locks among calls. -/
def users (calls : Assoc CallId Call) : List (User Login) := calls.filterMap fun x => x.2.user?

/-- **A pool fits calls**, while `us` are users of the locks besides them. -/
structure Consistent (p : Pool) (calls : Assoc CallId Call) (us : List (User Login))
    (closes : List ConnId) : Prop where
  tidy : p.Tidy
  keyed : calls.Keyed
  -- A search knows the number of its call.
  callers : ∀ id g, (id, .search g) ∈ calls → g.caller = id
  -- A call finds what it relies on.
  fits : ∀ x ∈ calls, x.2.Fits p
  -- The locks have the calls as their users.
  guarded : Guarded p.locks (users calls ++ us)
  -- What has left the pool was asked to be closed, and nothing else.
  closes : ∀ c, c ∈ closes ↔ p.Gone c

/-- **Traffic is sound** if its pool fits its calls. -/
def Sound (s : Traffic) : Prop := Consistent s.pool s.calls [] s.closes

/-! ## What an event can do -/

/-- **What an event can do.** -/
inductive Happens (s : Traffic) (now : Instant) : Event → Traffic × Option Ending → Prop
  | refuses {id : CallId} {t : Target} {f : Fault} (new : s.calls.get? id = none) :
      Happens s now (.search id t) (s, some (.found (.error f)))
  | queues {id : CallId} {t : Target} (new : s.calls.get? id = none) :
      Happens s now (.search id t)
        (s.afterSearch id ((Get.asking id t s.pool).2, .waits (Get.asking id t s.pool).1))
  | begins {id : CallId} {t : Target} {x : Pool × Progress Get Get.Result}
      (new : s.calls.get? id = none)
      (turn : (Get.asking id t s.pool).1.admitted (Get.asking id t s.pool).2 = true)
      (does : (Get.asking id t s.pool).1.Turn (Get.asking id t s.pool).2 x) :
      Happens s now (.search id t) (s.afterSearch id x)
  | orders {id : CallId} {o : Order} {cs : List ConnId} {q : Pool} (new : s.calls.get? id = none)
      (takes : s.pool.TakesOut cs q) (once : cs.Nodup) (held : ∀ c ∈ cs, ¬ s.pool.Gone c)
      (locks : q.locks = s.pool.locks) (counters : q.counters = s.pool.counters) :
      Happens s now (.order id o) (s.afterOrder id (Removal.closing cs q))
  | hears {id : CallId} {a : Answer} {g : Get} {p : Pool}
      (call : s.calls.get? id = some (.search g))
      (may : (Call.search g).mayHear s.pool a = true) (notes : g.Hears s.pool p)
      (does : g.Turn p (g.resume a now s.pool)) :
      Happens s now (.answer id a) (s.afterSearch id (g.resume a now s.pool))
  | closes {id : CallId} {c : ConnId} {r : Removal} (call : s.calls.get? id = some (.removal r))
      (pending : c ∈ r.pending) :
      Happens s now (.answer id (.closed c))
        (s.afterClose id (r.resume (.closed c) s.pool))
  | abandons {id : CallId} {c : Call} (call : s.calls.get? id = some c) :
      Happens s now (.abandon id) (s.abandon id c, none)
  | uses (c : ConnId) : Happens s now (.use c) ({ s with pool := s.pool.touch c now }, none)

/-- **An event does nothing else.** -/
theorem Sound.happens {r : Traffic × Option Ending} (h : s.Sound) (hs : s.step now e = some r) :
    s.Happens now e r := by
  cases e with
  | search id t =>
    rw [step, Option.ite_none_left_eq_some, Option.some.injEq] at hs
    obtain ⟨hnew, rfl⟩ := hs
    have hnew : s.calls.get? id = none := by simpa [Assoc.has] using hnew
    rcases Get.start_cases h.tidy id t now with ⟨f, hstart⟩ | hstart | ⟨hturn, hstart⟩
    · rw [hstart]
      have : s.afterSearch id (s.pool, .ends (.error f)) = (s, some (.found (.error f))) := by
        rw [afterSearch, Assoc.erase_of_get?_eq_none hnew]
      exact this ▸ .refuses hnew
    · exact hstart ▸ .queues hnew
    · exact .begins hnew hturn hstart
  | order id o =>
    rw [step, Option.ite_none_left_eq_some, Option.some.injEq] at hs
    obtain ⟨hnew, rfl⟩ := hs
    obtain ⟨cs, q, hstart, htakes, honce, hheld, hlocks, hcounters⟩ := o.start_eq h.tidy now
    rw [hstart]
    exact .orders (by simpa [Assoc.has] using hnew) htakes honce hheld hlocks hcounters
  | answer id a =>
    obtain ⟨c, hc, hs⟩ := Option.bind_eq_some_iff.mp hs
    rw [Option.ite_none_right_eq_some, Option.some.injEq] at hs
    obtain ⟨hmay, rfl⟩ := hs
    cases c with
    | search g =>
      obtain ⟨p, hnotes, hdoes⟩ :=
        Get.resume_turn h.tidy (h.fits _ (Assoc.mem_of_get? hc)) hmay now
      exact .hears hc hmay hnotes hdoes
    | removal r =>
      cases a with
      | closed c => exact .closes hc (by simpa [Call.mayHear, Call.wait, Removal.wait] using hmay)
      | _ => cases hmay
  | abandon id =>
    obtain ⟨c, hc, rfl⟩ := Option.map_eq_some_iff.mp hs
    exact .abandons hc
  | use c =>
    cases hs
    exact .uses c

theorem afterOrder_closing (s : Traffic) (id : CallId) (cs : List ConnId) (q : Pool) :
    (s.afterOrder id (Removal.closing cs q)).1 =
      ⟨q, if cs = [] then s.calls.erase id else s.calls.put id (.removal ⟨cs, cs.length⟩),
        s.closes ++ cs⟩ := by
  cases cs with
  | nil => simp [Removal.closing, afterOrder]
  | cons c cs => simp [Removal.closing, afterOrder]

theorem afterClose_resume (s : Traffic) (id : CallId) {r : Removal} {c : ConnId}
    (hc : c ∈ r.pending) :
    (s.afterClose id (r.resume (.closed c) s.pool)).1 =
      ⟨s.pool.noteClosed c,
        if r.pending.erase c = [] then s.calls.erase id
        else s.calls.put id (.removal { r with pending := r.pending.erase c }),
        s.closes⟩ := by
  rw [Removal.resume_closed hc]
  by_cases hrest : r.pending.erase c = []
  · rw [if_pos hrest, if_pos hrest, afterClose]
  · rw [if_neg hrest, if_neg hrest, afterClose]

/-! ## Calls come and go -/

theorem users_append (calls calls' : Assoc CallId Call) :
    users (calls ++ calls') = users calls ++ users calls' := List.filterMap_append

theorem users_perm {calls' : Assoc CallId Call} (h : calls.Perm calls') :
    (users calls).Perm (users calls') := h.filterMap _

theorem users_singleton (id : CallId) (c : Call) : users [(id, c)] = c.user?.toList := by
  cases c <;> rfl

theorem mem_users {u : User Login} :
    u ∈ users calls ↔ ∃ id g, (id, Call.search g) ∈ calls ∧ u = g.user := by
  simp only [users, List.mem_filterMap]
  constructor
  · rintro ⟨⟨id, c⟩, hmem, hu⟩
    cases c with
    | search g => exact ⟨id, g, hmem, (Option.some.inj hu).symm⟩
    | removal r => cases hu
  · rintro ⟨id, g, hmem, rfl⟩
    exact ⟨_, hmem, rfl⟩

namespace Consistent

theorem mono (h : Consistent p calls us closes) (ht : p.TakesOut cs q)
    (hl : Guarded q.locks (users calls ++ w)) : Consistent q calls w (closes ++ cs) where
  tidy := ht.tidy h.tidy
  keyed := h.keyed
  callers := h.callers
  fits x hx := by
    have := h.fits x hx
    obtain ⟨id, c⟩ := x
    cases c with
    | search g => exact Get.Fits.takes this ht
    | removal r => trivial
  guarded := hl
  closes c := by rw [List.mem_append, ht.gone_iff, h.closes]

/-- A call is taken out of the calls, and is a user besides them. -/
theorem out (h : Consistent p calls [] closes) {c : Call} (hc : calls.get? id = some c) :
    Consistent p (calls.erase id) c.user?.toList closes where
  tidy := h.tidy
  keyed := h.keyed.erase id
  callers i g hg := h.callers i g (List.mem_of_mem_filter hg)
  fits x hx := h.fits x (List.mem_of_mem_filter hx)
  guarded := by
    refine h.guarded.perm ?_
    have := users_perm (h.keyed.perm_cons_erase hc)
    rw [List.append_nil]
    refine this.trans ?_
    rw [← List.singleton_append, users_append, users_singleton]
    exact List.perm_append_comm
  closes := h.closes

/-- A call comes to the calls. -/
theorem put {c : Call} (h : Consistent p (calls.erase id) c.user?.toList closes) (hf : c.Fits p)
    (hid : ∀ g, c = .search g → g.caller = id) : Consistent p (calls.put id c) [] closes where
  tidy := h.tidy
  keyed := by
    have := h.keyed.put id c
    rwa [Assoc.put, Assoc.erase_of_get?_eq_none (Assoc.get?_erase_self _ _)] at this
  callers i g hg := by
    rcases List.mem_append.mp hg with hg | hg
    · exact h.callers i g hg
    · obtain ⟨rfl, rfl⟩ := Prod.mk.inj (List.mem_singleton.mp hg)
      exact hid g rfl
  fits x hx := by
    rcases List.mem_append.mp hx with hx | hx
    · exact h.fits x hx
    · rw [List.mem_singleton.mp hx]
      exact hf
  guarded := by
    rw [List.append_nil, Assoc.put, users_append, users_singleton]
    exact h.guarded
  closes := h.closes

/-- The turn of a search has come. -/
theorem within (h : Consistent p calls [g.user] closes)
    (ha : g.phase = .queued → g.admitted p = true) : Consistent p calls [g.within] closes := by
  by_cases hq : g.phase = .queued
  · exact ⟨h.tidy, h.keyed, h.callers, h.fits, h.guarded.pass (ha hq), h.closes⟩
  · rwa [Get.within_eq_user hq]

/-- **Under the lock of a login nobody else pools a connection**: a search that does disturbs no
other call. -/
theorem insert {c : ConnId} (h : Consistent p calls [g.within] closes)
    (hv : p.Vacant g.target.login) (hc : p.entry? c = none) :
    Consistent (p.insert c g.target now) calls [g.within] closes where
  tidy := h.tidy.insert hv hc
  keyed := h.keyed
  callers := h.callers
  fits x hx := by
    have hfits := h.fits x hx
    obtain ⟨id, c⟩ := x
    cases c with
    | removal r => trivial
    | search g' =>
      refine Get.Fits.insert hfits hv fun hq hk => ?_
      -- Another search that is inside under the same login would be the same user.
      have hmem : g'.user ∈ users calls := mem_users.mpr ⟨id, g', hx, rfl⟩
      have hsame : g'.user = g.within :=
        h.guarded.eq_of_inside (List.mem_append_left _ hmem) (by simp) hk
          (by simp [Get.user, hq]) rfl
      have hnodup := h.guarded.callers
      rw [List.map_append, List.nodup_append] at hnodup
      exact hnodup.2.2 _ (List.mem_map_of_mem hmem) _ (by simp) (congrArg User.caller hsame)
  guarded := h.guarded
  closes d := (h.closes d).trans (gone_insert_iff hv).symm

theorem hears (h : Consistent p calls [g.within] closes) (hn : g.Hears p q) :
    Consistent q calls [g.within] closes := by
  cases hn with
  | keeps takes locks => simpa using h.mono takes (locks _ h.guarded)
  | pools _ vacant new => exact h.insert vacant new

/-- **A turn leaves the traffic sound.** -/
theorem turn (h : Consistent p (s.calls.erase id) [g.within] s.closes) (hid : g.caller = id)
    {x : Pool × Progress Get Get.Result} (hx : g.Turn p x) : (s.afterSearch id x).1.Sound := by
  cases hx with
  | waits lands =>
    have hq := h.mono lands.takes (w := [g.within]) (by rw [lands.locks]; exact h.guarded)
    rw [← Get.user_of_phase lands.inside] at hq
    refine Consistent.put (c := .search _) hq lands.fits ?_
    rintro _ ⟨⟩
    exact hid
  | @ends r found =>
    obtain ⟨q, hq, hentries, -, hlocks⟩ := g.finish_eq r p
    rw [hq]
    have := h.mono (.of_entries_eq hentries) (w := []) (by simpa using hlocks _ h.guarded)
    simpa [Sound, afterSearch] using this

/-- A call that is not under way asks for a lock. -/
theorem asking (h : Consistent p calls [] closes) (hnew : calls.get? id = none) (t : Target) :
    Consistent (Get.asking id t p).2 (calls.erase id) [(Get.asking id t p).1.user] closes := by
  rw [Assoc.erase_of_get?_eq_none hnew]
  have hcallers : ∀ u ∈ users calls, u.caller ≠ id := by
    intro u hu
    obtain ⟨i, g, hg, rfl⟩ := mem_users.mp hu
    rintro rfl
    have hi : g.caller = i := h.callers i g hg
    rw [show g.user.caller = i from hi, h.keyed.get?_eq_some_iff.mpr hg] at hnew
    cases hnew
  have hguarded := h.guarded
  rw [List.append_nil] at hguarded
  exact ⟨⟨h.tidy.ids, h.tidy.logins⟩, h.keyed, h.callers, h.fits,
    hguarded.enter_openCell t.login () hcallers, h.closes⟩

end Consistent

/-! ## Traffic stays sound -/

protected theorem Sound.idle (settings : PoolSettings) (walk : Walk) :
    (idle settings walk).Sound where
  tidy := .empty settings walk
  keyed := .nil
  callers := nofun
  fits := nofun
  guarded := .empty
  closes c := by simp [idle, Pool.empty, Gone]

/-- **One event leaves the traffic sound.** -/
theorem Sound.step {o : Option Ending} (h : s.Sound) (hs : s.step now e = some (t, o)) :
    t.Sound := by
  have hdoes := h.happens hs
  generalize hr : (t, o) = r at hdoes
  obtain rfl : r.1 = t := hr ▸ rfl
  cases hdoes with
  | refuses => exact h
  | @queues id t new =>
    have hput := Consistent.put (c := .search _) (h.asking new t) trivial (by rintro _ ⟨⟩; rfl)
    simpa [Sound, afterSearch, Get.asking, Get.closing] using hput
  | @begins id t x new turn does =>
    exact ((h.asking new t).within fun _ => turn).turn rfl does
  | @orders id o cs q new takes once held locks counters =>
    have hq : Consistent q s.calls [] (s.closes ++ cs) :=
      h.mono takes (by rw [locks]; exact h.guarded)
    rw [afterOrder_closing]
    split
    · rwa [Assoc.erase_of_get?_eq_none new]
    · refine Consistent.put (c := .removal _) ?_ trivial nofun
      rwa [Assoc.erase_of_get?_eq_none new]
  | @hears id a g p call may notes does =>
    have hid : g.caller = id := h.callers id g (Assoc.mem_of_get? call)
    have hin : Consistent s.pool (s.calls.erase id) [g.within] s.closes := by
      refine (h.out call).within fun hq => ?_
      obtain ⟨caller, t, lock, phase⟩ := g
      cases hq
      cases a with
      | admitted => exact may
      | _ => cases may
    exact (hin.hears notes).turn hid does
  | @closes id c r call pending =>
    have hout := h.out call
    have hq : Consistent (s.pool.noteClosed c) (s.calls.erase id) [] s.closes := by
      simpa using hout.mono (takesOut_noteClosed s.pool c) (w := [])
        (guarded_noteClosed hout.guarded c)
    rw [afterClose_resume s id pending]
    split
    · exact hq
    · exact Consistent.put (c := .removal _) hq trivial nofun
  | @abandons id c call =>
    have hout := h.out call
    cases c with
    | search g =>
      have hq := hout.mono (.of_entries_eq rfl) (q := g.abandon s.pool) (w := []) (by
        rw [List.append_nil]
        exact hout.guarded.release)
      simpa [Sound, abandon] using hq
    | removal r => exact hout
  | uses c =>
    have hq := h.mono (.touch s.pool c now) (w := []) h.guarded
    simpa [Sound] using hq

/-- **Traffic that begins on an idle pool is sound at every moment.** -/
theorem Sound.run {es : List (Instant × Event)} (h : s.Sound) (hs : s.run es = some t) :
    t.Sound := by
  induction es generalizing s with
  | nil =>
    cases hs
    exact h
  | cons x es ih =>
    obtain ⟨⟨s', o⟩, hstep, hrest⟩ := Option.bind_eq_some_iff.mp hs
    exact ih (h.step hstep) hrest

/-! ## What stays -/

/-- Closes that were asked for stay on record. -/
theorem Happens.closes_subset {r : Traffic × Option Ending} (h : s.Happens now e r) :
    s.closes ⊆ r.1.closes := by
  cases h with
  | refuses => exact List.Subset.refl _
  | queues => exact closes_subset_afterSearch ..
  | begins => exact closes_subset_afterSearch ..
  | orders =>
    rw [afterOrder_closing]
    exact List.subset_append_left _ _
  | hears => exact closes_subset_afterSearch ..
  | closes _ pending =>
    rw [afterClose_resume _ _ pending]
    exact List.Subset.refl _
  | @abandons id c => cases c <;> exact List.Subset.refl _
  | uses => exact List.Subset.refl _

/-- A call stays as it is while events are about others. -/
theorem Happens.get?_eq {r : Traffic × Option Ending} (h : s.Happens now e r)
    (he : e.call? ≠ some id) : r.1.calls.get? id = s.calls.get? id := by
  have hne {i : CallId} (hi : e.call? = some i) : id ≠ i := fun hid => he (hid ▸ hi)
  cases h with
  | refuses => rfl
  | queues => exact get?_afterSearch_of_ne _ (hne rfl) _
  | begins => exact get?_afterSearch_of_ne _ (hne rfl) _
  | orders =>
    rw [afterOrder_closing]
    dsimp only
    split
    · exact Assoc.get?_erase_of_ne _ (hne rfl)
    · exact Assoc.get?_put_of_ne _ _ (hne rfl)
  | hears => exact get?_afterSearch_of_ne _ (hne rfl) _
  | closes _ pending =>
    rw [afterClose_resume _ _ pending]
    dsimp only
    split
    · exact Assoc.get?_erase_of_ne _ (hne rfl)
    · exact Assoc.get?_put_of_ne _ _ (hne rfl)
  | @abandons i c => cases c <;> exact Assoc.get?_erase_of_ne _ (hne rfl)
  | uses => rfl

/-- A connection that has left the pool does not come back. -/
theorem Sound.gone {o : Option Ending} {c : ConnId} (h : s.Sound) (hs : s.step now e = some (t, o))
    (hc : s.pool.Gone c) : t.pool.Gone c :=
  ((h.step hs).closes c).mp ((h.happens hs).closes_subset ((h.closes c).mpr hc))

end Traffic

end RemoteShell
