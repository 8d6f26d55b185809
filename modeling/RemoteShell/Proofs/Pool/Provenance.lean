import RemoteShell.Proofs.Pool.Growth
import RemoteShell.Proofs.Pool.Returned

/-!
# Where connections come from

A search that ends with a connection did not need to open it.  It was opened for the target of some
search that waited for the network to connect, and the pool finds it again by the login that it
keeps the connection under.  So the user of a connection is the one who logged in for that other
target.

A login stands for the host and the port of its target, and for the user as far as one is asked for:
no user and an empty one both go by the name `default`, and so does the user of that name.  Whoever
logs in without being asked for is the local user, else the superuser.  Targets of one login have
one user unless one of them asks for nobody and the other for `default`, and somebody else would log
in for nobody.

## Main definitions

* `Target.asked`, `Target.Mixes`: the user that is asked for, and the targets that one login mixes
* `Traffic.Opens`: a search that waits for a connection to its target is told of it

## Main results

* `Target.loginUser_eq_iff`: when targets of one login have one user
* `Traffic.knows_iff_opened`: a pool knows connections by the logins they were opened for
* `Traffic.found_for_user`: for whom the connection was opened that a search ends with
* `Traffic.found_for_other_user`: a search that ends with the connection of another user
-/

namespace RemoteShell

/-! ## Users and logins -/

namespace Target

variable {t t' : Target} {l : Option String}

/-- The user that a target asks for; an empty name asks for nobody. -/
def asked (t : Target) : Option String := t.user.filter fun u => !u.isEmpty

/-- **One login mixes two targets**: one of them asks for nobody, the other for the user that nobody
goes by, and nobody would log in as somebody else. -/
def Mixes (l : Option String) (t t' : Target) : Prop :=
  ((t.asked = none ∧ t'.asked = some "default") ∨
    (t.asked = some "default" ∧ t'.asked = none)) ∧ l.getD "root" ≠ "default"

theorem login_eq_iff :
    t.login = t'.login ↔
      t.asked.getD "default" = t'.asked.getD "default" ∧ t.host = t'.host ∧ t.port = t'.port :=
  Login.mk.injEq .. |>.to_iff

theorem loginUser_of_none (h : t.asked = none) : t.loginUser l = l.getD "root" := by
  unfold loginUser
  rw [show t.user.filter (fun u => !u.isEmpty) = none from h, Option.none_or]

theorem loginUser_of_some {u : String} (h : t.asked = some u) : t.loginUser l = u := by
  unfold loginUser
  rw [show t.user.filter (fun u => !u.isEmpty) = some u from h, Option.some_or, Option.getD_some]

/-- **When targets of one login have one user.** -/
theorem loginUser_eq_iff (h : t.login = t'.login) :
    t.loginUser l = t'.loginUser l ↔ ¬ Mixes l t t' := by
  obtain ⟨huser, -, -⟩ := login_eq_iff.mp h
  unfold Mixes
  cases ht : t.asked with
  | none =>
    cases ht' : t'.asked with
    | none =>
      rw [loginUser_of_none ht, loginUser_of_none ht']
      simp
    | some u =>
      obtain rfl : "default" = u := by simpa [ht, ht'] using huser
      rw [loginUser_of_none ht, loginUser_of_some ht']
      simp
  | some u =>
    cases ht' : t'.asked with
    | none =>
      obtain rfl : u = "default" := by simpa [ht, ht'] using huser
      rw [loginUser_of_some ht, loginUser_of_none ht']
      simp [eq_comm]
    | some u' =>
      obtain rfl : u = u' := by simpa [ht, ht'] using huser
      rw [loginUser_of_some ht, loginUser_of_some ht']
      simp

end Target

/-! ## What a pool knows -/

namespace Pool

variable {p q : Pool} {c d : ConnId} {k : Login} {cs : List ConnId} {g : Get} {now : Instant}

theorem TakesOut.knows_iff (h : p.TakesOut cs q) : q.Knows c k ↔ p.Knows c k := by
  constructor
  · rintro ⟨e, he, rfl, rfl⟩
    obtain ⟨e₀, he₀, hid, hkey, -⟩ := h.exists_of_mem he
    exact ⟨e₀, he₀, hid.symm, hkey.symm⟩
  · exact h.knows

theorem knows_insert_iff {t : Target} (hv : p.Vacant t.login) :
    (p.insert d t now).Knows c k ↔ p.Knows c k ∨ (d = c ∧ t.login = k) := by
  constructor
  · rintro ⟨e, he, rfl, rfl⟩
    rcases (mem_entries_insert hv).mp he with he | rfl
    · exact .inl ⟨e, he, rfl, rfl⟩
    · exact .inr ⟨rfl, rfl⟩
  · rintro (h | ⟨rfl, rfl⟩)
    · exact h.insert hv
    · exact knows_insert hv

theorem Tidy.eq_of_knows {k' : Login} (h : p.Tidy) (hk : p.Knows c k) (hk' : p.Knows c k') :
    k = k' := by
  obtain ⟨e, he, hid, rfl⟩ := hk
  obtain ⟨f, hf, hid', rfl⟩ := hk'
  rw [h.eq_of_id he hf (hid.trans hid'.symm)]

namespace Get

/-- The second part of a turn opens nothing. -/
theorem Turn.takesOut {x : Pool × Progress Get Result} (h : g.Turn p x) :
    ∃ cs, p.TakesOut cs x.1 := by
  cases h with
  | waits lands => exact ⟨_, lands.takes⟩
  | @ends r =>
    obtain ⟨q, hq, hentries, -⟩ := g.finish_eq r p
    exact ⟨[], by rw [hq]; exact .of_entries_eq hentries⟩

/-- **A search adds what it is told of** to what the pool knows, under the login of its target. -/
theorem knows_resume_iff {a : Answer} (may : (Call.search g).mayHear p a = true)
    (notes : g.Hears p q) (does : g.Turn q (g.resume a now p)) :
    (g.resume a now p).1.Knows c k ↔
      p.Knows c k ∨ (a.delivered? = some c ∧ g.target.login = k) := by
  have hids := (grows_resume may now).ids
  obtain ⟨cs, takes⟩ := does.takesOut
  rw [takes.knows_iff]
  have hsame : (g.resume a now p).1.ids = q.ids := takes.map_id
  rw [hsame] at hids
  cases notes with
  | keeps keeps =>
    have hq : q.ids = p.ids := keeps.map_id
    have hnone : a.delivered? = none := by
      rw [hq, List.self_eq_append_right] at hids
      simpa using hids
    rw [keeps.knows_iff, hnone]
    simp
  | @pools d now' phase vacant new =>
    have hsome : a.delivered? = some d := by
      rw [(Grows.insert p d g.target now').ids, List.append_cancel_left_eq] at hids
      cases hd : a.delivered? with
      | none => simp [hd] at hids
      | some d' => simpa [hd, eq_comm] using hids
    rw [knows_insert_iff vacant, hsome, Option.some.injEq]

end Get

end Pool

/-! ## Traffic -/

namespace Traffic

open Pool

variable {s t : Traffic} {now : Instant} {e : Event} {o : Option Ending} {c : ConnId} {k : Login}
  {x : Target} {es : List (Instant × Event)} {settings : PoolSettings} {walk : Walk}

/-- **A connection is opened for a target**: a search that waits for a connection to the target is
told of it. -/
def Opens (x : Target) (c : ConnId) (s : Traffic) (_ : Instant) (e : Event) : Prop :=
  ∃ id g limit, e = .answer id (.connected (.ok c)) ∧ s.calls.get? id = some (.search g) ∧
    g.wait s.pool = .connect x limit

theorem wait_eq_connect {g : Get} {p : Pool} {limit : Duration}
    (h : g.wait p = .connect x limit) : g.target = x := by
  unfold Get.wait at h
  split at h
  all_goals cases h
  rfl

/-- Only a search that waits for a connection is told of one. -/
theorem opens_iff {id : CallId} {a : Answer} {g : Get} (hg : s.calls.get? id = some (.search g))
    (may : (Call.search g).mayHear s.pool a = true) :
    Opens x c s now (.answer id a) ↔ a.delivered? = some c ∧ g.target = x := by
  constructor
  · rintro ⟨i, g', limit, he, hg', hwait⟩
    cases he
    cases hg.symm.trans hg'
    exact ⟨rfl, wait_eq_connect hwait⟩
  · rintro ⟨hd, rfl⟩
    obtain ⟨caller, t, lock, phase⟩ := g
    cases phase with
    | connecting =>
      cases a with
      | connected r =>
        cases r with
        | ok d =>
          cases hd
          exact ⟨id, _, _, rfl, hg, rfl⟩
        | error f => cases hd
      | _ => cases hd
    | _ =>
      cases a with
      | connected r => cases may
      | _ => cases hd

/-- **What a pool knows after an event** it knew before, or it was opened just now. -/
theorem Happens.knows_iff {r : Traffic × Option Ending} (h : s.Happens now e r) :
    r.1.pool.Knows c k ↔ s.pool.Knows c k ∨ ∃ x, Opens x c s now e ∧ x.login = k := by
  have hnone (he : ∀ id a, e ≠ .answer id a) :
      (s.pool.Knows c k ∨ ∃ x, Opens x c s now e ∧ x.login = k) ↔ s.pool.Knows c k := by
    refine or_iff_left ?_
    rintro ⟨x, ⟨id, g, limit, he', -⟩, -⟩
    exact he id _ he'
  cases h with
  | refuses => rw [hnone nofun]
  | queues =>
    rw [hnone nofun, pool_afterSearch]
    exact Iff.rfl
  | begins _ _ does =>
    obtain ⟨cs, takes⟩ := does.takesOut
    rw [hnone nofun, pool_afterSearch, takes.knows_iff]
    exact Iff.rfl
  | orders _ takes =>
    rw [hnone nofun, pool_afterOrder, Removal.fst_closing, takes.knows_iff]
  | hears call may notes does =>
    rw [pool_afterSearch, Get.knows_resume_iff may notes does]
    refine or_congr_right ?_
    simp only [opens_iff call may]
    constructor
    · rintro ⟨hd, rfl⟩
      exact ⟨_, ⟨hd, rfl⟩, rfl⟩
    · rintro ⟨x, ⟨hd, rfl⟩, rfl⟩
      exact ⟨hd, rfl⟩
  | @closes id d r call pending =>
    have hopens : ¬ ∃ x, Opens x c s now (.answer id (.closed d)) ∧ x.login = k := by
      rintro ⟨x, ⟨i, g, limit, he, -⟩, -⟩
      cases he
    rw [or_iff_left hopens, afterClose_resume _ _ pending, (takesOut_noteClosed _ _).knows_iff]
  | @abandons id call =>
    rw [hnone nofun]
    cases call with
    | search g => exact Iff.rfl
    | removal r => exact Iff.rfl
  | uses d =>
    rw [hnone nofun, (TakesOut.touch s.pool d now).knows_iff]

/-- **A pool knows connections by the logins they were opened for.** -/
theorem knows_iff_opened (h : (idle settings walk).run es = some s) :
    s.pool.Knows c k ↔ ∃ x, (idle settings walk).Sometime es (Opens x c) ∧ x.login = k := by
  induction es using List.reverseRecOn generalizing s with
  | nil =>
    cases h
    constructor
    · rintro ⟨e, he, -⟩
      cases he
    · rintro ⟨x, hx, -⟩
      exact absurd hx (not_sometime_nil _ _)
  | append_singleton es y ih =>
    obtain ⟨now, e⟩ := y
    obtain ⟨u, o, hu, hstep⟩ := run_snoc_eq_some.mp h
    have hsound : u.Sound := (Sound.idle settings walk).run hu
    have hlast (x : Target) :
        (∃ v, (idle settings walk).run es = some v ∧ Opens x c v now e) ↔ Opens x c u now e := by
      rw [hu]
      simp
    have hstepped := (hsound.happens hstep).knows_iff (c := c) (k := k)
    rw [ih hu] at hstepped
    simp only [sometime_snoc_iff, hlast, or_and_right, exists_or]
    exact hstepped

/-- **For whom a connection was opened** that a search ends with.  Targets of one login have one
user unless the login mixes them; and whatever happened on the pool before, the connection was
opened for a target of the same host and port, by the same user unless the login mixes the two. -/
theorem found_for_user (localUser : Option String) :
    (∀ x y : Target, x.login = y.login →
      (x.loginUser localUser = y.loginUser localUser ↔ ¬ x.Mixes localUser y)) ∧
    ∀ (settings : PoolSettings) (walk : Walk) (es : List (Instant × Event)) (s t : Traffic)
      (now : Instant) (e : Event) (c : ConnId), (idle settings walk).run es = some s →
      s.step now e = some (t, some (.found (.ok c))) →
      ∃ id a g, e = .answer id a ∧ s.calls.get? id = some (.search g) ∧
        (∃ x, (idle settings walk).Sometime (es ++ [(now, e)]) (Opens x c)) ∧
        ∀ x, (idle settings walk).Sometime (es ++ [(now, e)]) (Opens x c) →
          x.host = g.target.host ∧ x.port = g.target.port ∧
            (x.loginUser localUser = g.target.loginUser localUser ↔
              ¬ x.Mixes localUser g.target) := by
  refine ⟨fun x y h => Target.loginUser_eq_iff h, ?_⟩
  intro settings walk es s t now e c hs hend
  have hsound : s.Sound := (Sound.idle settings walk).run hs
  have ht : t.Sound := hsound.step hend
  have hrun : (idle settings walk).run (es ++ [(now, e)]) = some t :=
    run_snoc_eq_some.mpr ⟨s, _, hs, hend⟩
  obtain ⟨id, a, g, he, hg, hknows, -, -⟩ := (hsound.happens hend).found rfl
  refine ⟨id, a, g, he, hg, ?_, fun x hx => ?_⟩
  · obtain ⟨x, hx, -⟩ := (knows_iff_opened hrun).mp hknows
    exact ⟨x, hx⟩
  · have hlogin : x.login = g.target.login :=
      ht.tidy.eq_of_knows ((knows_iff_opened hrun).mpr ⟨x, hx, rfl⟩) hknows
    obtain ⟨-, hhost, hport⟩ := Target.login_eq_iff.mp hlogin
    exact ⟨hhost, hport, Target.loginUser_eq_iff hlogin⟩

/-- The second of two searches for one user ends with the connection that was opened for the
first. -/
theorem found_for_user_of_two_searches :
    ∃ x, (idle ⟨2, .ofSecs 300, .ofSecs 30⟩).Sometime
        (twoSearches ++ [(.start, .answer 1 (.alive true))]) (Opens x 0) ∧
      x.host = "a" ∧ x.port = 22 ∧
      (x.loginUser (some "ann") = "u" ↔
        ¬ x.Mixes (some "ann") ⟨"a", 22, some "u", none, none⟩) := by
  obtain ⟨s, t, hs, hend, hcall⟩ :
      ∃ s t, (idle ⟨2, .ofSecs 300, .ofSecs 30⟩).run twoSearches = some s ∧
        s.step .start (.answer 1 (.alive true)) = some (t, some (.found (.ok 0))) ∧
        s.calls.get? 1 =
          some (.search ⟨1, ⟨"a", 22, some "u", none, none⟩, 0, .probing 0⟩) :=
    ⟨_, _, rfl, rfl, rfl⟩
  obtain ⟨id, a, g, he, hg, ⟨x, hx⟩, hall⟩ :=
    (found_for_user (some "ann")).2 _ _ _ _ _ _ _ _ hs hend
  cases he
  cases hcall.symm.trans hg
  exact ⟨x, hx, hall x hx⟩

/-- A search for a host without a user, and one for the user `default`, of which the second waits
for a sign of life. -/
def nobodyThenDefault : List (Instant × Event) :=
  [(.start, .search 0 ⟨"a", 22, none, none, none⟩),
    (.start, .answer 0 (.connected (.ok 0))),
    (.start, .search 1 ⟨"a", 22, some "default", none, none⟩)]

/-- **A search ends with the connection of another user**: the second search asks for the user
`default` and is given the connection that was opened for nobody, as whom the local user `ann`
logged in. -/
theorem found_for_other_user :
    ∃ s t, (idle ⟨2, .ofSecs 300, .ofSecs 30⟩).run nobodyThenDefault = some s ∧
      s.step .start (.answer 1 (.alive true)) = some (t, some (.found (.ok 0))) ∧
      (idle ⟨2, .ofSecs 300, .ofSecs 30⟩).Sometime nobodyThenDefault
        (Opens ⟨"a", 22, none, none, none⟩ 0) ∧
      (Target.mk "a" 22 none none none).login =
        (Target.mk "a" 22 (some "default") none none).login ∧
      (Target.mk "a" 22 none none none).loginUser (some "ann") = "ann" ∧
      (Target.mk "a" 22 (some "default") none none).loginUser (some "ann") = "default" := by
  refine ⟨_, _, rfl, rfl, ?_, by decide, by decide, by decide⟩
  exact ⟨nobodyThenDefault.take 1, _, _, nobodyThenDefault.drop 2, _, rfl, rfl, 0, _, _, rfl, rfl,
    rfl⟩

end Traffic

end RemoteShell
