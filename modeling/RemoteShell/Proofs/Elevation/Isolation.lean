import RemoteShell.Proofs.Cells.Agreement
import RemoteShell.Proofs.Elevation.Aftermath

/-!
# Logins are apart

What happens on a login is up to the events on it alone.  Calls on other logins come and go, are
told whatever they are told, and are given up; profiles of other logins are forgotten: the calls on
the login ask, keep and end with the same, in whatever order the events of other logins come in
between, and also if there are none.

Two runs on one login are compared in lockstep.  The second one has only calls on the login; an
event on the login happens in both, every other event in the first one alone.

## Main definitions

* `Traffic.Aspect`, `Traffic.aspect`: what there is of a login
* `Traffic.eventsOn`: the events of a run that are on a login
* `Traffic.Mirrors`: two engines with the same calls on a login
* `Traffic.Interchangeable`: runs cannot tell two engines apart on a login

## Main results

* `Mirrors.aside`, `Mirrors.together`: one event, in one engine or in both
* `Mirrors.run`: the events on a login do the same alone
* `Mirrors.interchangeable`: runs with the same events on a login do the same on it
-/

namespace RemoteShell.Elevation

variable {settings : ElevationSettings} {R R' : CellId → CellId → Prop} {k : Login} {n : CellId}
  {c d : Climb} {e e' : Engine} {x y : Engine × Progress Climb Climb.Result}

/-! ## A call on another login -/

namespace Climb

/-- The end of a call on another login. -/
theorem agree_finish_left {ds : Cells Login (Option Profile)} (h : e.profiles.Agree R k ds)
    (hkey : c.key ≠ k) (hcell : ∀ m, ¬ R c.cell m) (z : Ending) :
    (c.finish z e).1.profiles.Agree R k ds := by
  have hreleased : (c.release e).profiles.Agree R k ds := h.release_left hcell c.caller
  cases z with
  | finished r => exact hreleased
  | crashed => exact hreleased
  | undetected f => exact hreleased.retire_left (Ne.symm hkey) _

/-- **A call on another login goes on**, and leaves the login as it is. -/
theorem agree_follow_left {ds : Cells Login (Option Profile)} (h : e.profiles.Agree R k ds)
    (hkey : c.key ≠ k) (hcell : ∀ m, ¬ R c.cell m) (t : Talk Ending) :
    (c.follow t e).1.profiles.Agree R k ds := by
  induction t generalizing e with
  | done z => exact agree_finish_left h hkey hcell z
  | ask q next ih =>
    rcases q.outward_or_keep with hq | ⟨p, rfl⟩
    · rw [c.follow_ask hq]
      exact h
    · exact ih () (e := { e with profiles := e.profiles.setValue c.cell (some p) })
        (h.setValue_left hcell (some p))

/-! ## One call on two engines -/

/-- **The same call on two engines**: it is on the login, and its cells are a pair. -/
def Twin (R : CellId → CellId → Prop) (k : Login) (c d : Climb) : Prop :=
  c.key = k ∧ ∃ m, R c.cell m ∧ d = { c with cell := m }

/-- **The same call has gone on** on two engines: they still agree on the login, and it waits for
the same or ends with the same. -/
structure Abreast (R : CellId → CellId → Prop) (k : Login)
    (x y : Engine × Progress Climb Climb.Result) : Prop where
  agree : x.1.profiles.Agree R k y.1.profiles
  comes : (∃ c d, x.2 = .waits c ∧ y.2 = .waits d ∧ Twin R k c d) ∨
    ∃ r, x.2 = .ends r ∧ y.2 = .ends r

namespace Twin

theorem mono (h : Twin R k c d) (hold : ∀ n m, R n m → R' n m) : Twin R' k c d := by
  obtain ⟨hkey, m, hm, rfl⟩ := h
  exact ⟨hkey, m, hold _ _ hm, rfl⟩

theorem key_eq (h : Twin R k c d) : d.key = k := by
  obtain ⟨hkey, m, -, rfl⟩ := h
  exact hkey

theorem caller_eq (h : Twin R k c d) : d.caller = c.caller := by
  obtain ⟨-, m, -, rfl⟩ := h
  rfl

theorem told_eq (h : Twin R k c d) (a : Answer) : d.told a = c.told a := by
  obtain ⟨-, m, -, rfl⟩ := h
  rfl

theorem admitted_eq (h : Twin R k c d) (hagree : e.profiles.Agree R k e'.profiles) :
    d.admitted e' = c.admitted e := by
  obtain ⟨-, m, hm, rfl⟩ := h
  exact (hagree.admits_eq hm c.caller).symm

theorem mayHear_eq (h : Twin R k c d) (hagree : e.profiles.Agree R k e'.profiles) (a : Answer) :
    d.mayHear e' a = c.mayHear e a := by
  have hadmitted := h.admitted_eq hagree
  obtain ⟨-, m, -, rfl⟩ := h
  unfold mayHear
  rw [hadmitted]

/-- Both calls note the same. -/
theorem notesOf_eq (h : Twin R k c d) (hxy : Abreast R k x y) (told : List Deed) :
    notesOf d told y = notesOf c told x := by
  obtain ⟨-, m, hm, rfl⟩ := h
  have hvalue := hxy.agree.value?_eq hm
  have hcomes : comesTo y.2 = comesTo x.2 := by
    rcases hxy.comes with ⟨c', d', hx, hy, -, m', -, rfl⟩ | ⟨r, hx, hy⟩
    · rw [hx, hy]
      rfl
    · rw [hx, hy]
  unfold notesOf
  rw [hcomes, hvalue]
  rfl

/-- Both calls end. -/
theorem finish (h : Twin R k c d) (hagree : e.profiles.Agree R k e'.profiles) (z : Ending) :
    Abreast R k (c.finish z e) (d.finish z e') := by
  obtain ⟨rfl, m, hm, rfl⟩ := h
  have hreleased := hagree.release hm c.caller
  cases z with
  | finished r => exact ⟨hreleased, .inr ⟨_, rfl, rfl⟩⟩
  | crashed => exact ⟨hreleased, .inr ⟨_, rfl, rfl⟩⟩
  | undetected f => exact ⟨hreleased.retire _, .inr ⟨_, rfl, rfl⟩⟩

/-- **Both calls go on** with the same dialogue. -/
theorem follow (h : Twin R k c d) (hagree : e.profiles.Agree R k e'.profiles) (t : Talk Ending) :
    Abreast R k (c.follow t e) (d.follow t e') := by
  induction t generalizing e e' with
  | done z => exact h.finish hagree z
  | ask q next ih =>
    obtain ⟨hkey, m, hm, rfl⟩ := h
    rcases q.outward_or_keep with hq | ⟨p, rfl⟩
    · rw [follow_ask _ hq, follow_ask _ hq]
      exact ⟨hagree, .inl ⟨_, _, rfl, rfl, hkey, m, hm, rfl⟩⟩
    · have hkept : Cells.Agree R k
          ({ e with profiles := e.profiles.setValue c.cell (some p) } : Engine).profiles
          ({ e' with profiles := e'.profiles.setValue m (some p) } : Engine).profiles :=
        hagree.setValue hm (some p)
      exact ih () hkept

/-- Both calls begin. -/
theorem begin (h : Twin R k c d) (hagree : e.profiles.Agree R k e'.profiles)
    (hsettings : e.settings = e'.settings) : Abreast R k (c.begin e) (d.begin e') := by
  have hfollow := h.follow hagree
    (ascend e.settings c.key c.command c.timeout (e.profiles.value? c.cell).join)
  obtain ⟨-, m, hm, rfl⟩ := h
  rw [Climb.begin, Climb.begin, ← hsettings, ← hagree.value?_eq hm]
  exact hfollow

/-- Both calls hear the same answer. -/
theorem resume (h : Twin R k c d) (hagree : e.profiles.Agree R k e'.profiles)
    (hsettings : e.settings = e'.settings) (a : Answer) :
    Abreast R k (c.resume a e) (d.resume a e') := by
  have hstays : Abreast R k (e, .waits c) (e', .waits d) := ⟨hagree, .inl ⟨c, d, rfl, rfl, h⟩⟩
  have hphase : d.phase = c.phase := by
    obtain ⟨-, m, -, rfl⟩ := h
    rfl
  unfold Climb.resume
  rw [hphase]
  split
  · exact h.begin hagree hsettings
  · split
    · exact hstays
    · exact h.follow hagree _
  · exact hstays

/-- Both calls come. -/
theorem start {id : CallId}
    (hagree : (e.entered id k).profiles.Agree R k (e'.entered id k).profiles)
    (hcells : R (e.profiles.openCell k none).1 (e'.profiles.openCell k none).1)
    (hsettings : e.settings = e'.settings) (command : String) (timeout : Duration)
    (on : Option ConnId) :
    Abreast R k (Climb.start id k command timeout on e)
      (Climb.start id k command timeout on e') := by
  have htwin : Twin R k (arrive id k command timeout on e) (arrive id k command timeout on e') :=
    ⟨rfl, _, hcells, rfl⟩
  rw [start_eq, start_eq, htwin.admitted_eq hagree]
  split
  · exact htwin.begin hagree hsettings
  · exact ⟨hagree, .inl ⟨_, _, rfl, rfl, htwin⟩⟩

end Twin

/-- A call that hears something at most takes the cell of its login out of the table. -/
theorem filed_of_resume {a : Answer} (hk : (c.resume a e).1.profiles.table.get? k = some n) :
    e.profiles.table.get? k = some n := by
  unfold resume at hk
  split at hk
  · exact filed_of_follow _ hk
  · split at hk
    · exact hk
    · exact filed_of_follow _ hk
  · exact hk

end Climb

/-! ## What there is of a login -/

namespace Traffic

variable {s r t u : Traffic} {ev : Event} {es : List Event} {told : List Deed} {id : CallId}

/-- A call, if it is on a login. -/
def callOn (s : Traffic) (k : Login) (id : CallId) : Option Climb :=
  (s.calls.get? id).filter fun c => c.key = k

/-- The notes of all calls on a login, the latest first. -/
def notesFor (s : Traffic) (k : Login) : List Note :=
  (s.journal.map Prod.snd).filter fun y => y.key = k

/-- **What there is of a login**: the profile and the lock of its cell, the calls on it, and what
they have noted; but not which numbers the cells have. -/
structure Aspect where
  cell : Option (Cell (Option Profile))
  calls : CallId → Option Climb
  notes : List Note

/-- What there is of a login in an engine. -/
def aspect (s : Traffic) (k : Login) : Aspect where
  cell := s.engine.profiles.current? k
  calls id := (s.callOn k id).map fun c => { c with cell := 0 }
  notes := s.notesFor k

/-- **Is an event on a login?**  Its calls and all that they hear are, and so is that it is
forgotten. -/
def concerns (s : Traffic) (k : Login) : Event → Bool
  | .call _ key .. => key = k
  | .answer id _ => (s.callOn k id).isSome
  | .abandon id => (s.callOn k id).isSome
  | .clear host => host.all fun h => k.host = h

/-- **The events of a run that are on a login.** -/
def eventsOn (k : Login) : Traffic → List Event → List Event
  | _, [] => []
  | s, ev :: es =>
    let later := (s.step ev).elim [] fun t => t.eventsOn k es
    if s.concerns k ev then ev :: later else later

theorem concerns_clear_iff {host : Option String} :
    s.concerns k (.clear host) = true ↔ (Event.clear host).Forgets k := by
  cases host <;> simp [concerns, Event.Forgets]

theorem callOn_eq_some_iff : s.callOn k id = some c ↔ s.calls.get? id = some c ∧ c.key = k := by
  rw [callOn, Option.filter_eq_some_iff, decide_eq_true_eq]

theorem callOn_of_ne (call : s.calls.get? id = some c) (hkey : c.key ≠ k) :
    s.callOn k id = none := by
  rw [callOn, call]
  simpa using hkey

theorem callOn_of_none (hnew : s.calls.get? id = none) (k : Login) : s.callOn k id = none := by
  rw [callOn, hnew]
  rfl

theorem notesFor_after (s : Traffic) (c : Climb) (told : List Deed)
    (x : Engine × Progress Climb Climb.Result) :
    (s.after c told x).notesFor k =
      (if c.key = k then notesOf c told x else []) ++ s.notesFor k := by
  have hnotes : ∀ y ∈ notesOf c told x, y.key = c.key := by
    intro y hy
    obtain ⟨d, -, rfl⟩ := List.mem_map.mp hy
    rfl
  rw [notesFor, after, List.map_append, List.filter_append, List.map_map]
  refine congrArg (· ++ s.notesFor k) ?_
  change ((notesOf c told x).map id).filter _ = _
  rw [List.map_id]
  split
  · next hkey => exact List.filter_eq_self.mpr fun y hy => by simp [hnotes y hy, hkey]
  · next hkey => exact List.filter_eq_nil_iff.mpr fun y hy => by simpa [hnotes y hy] using hkey

theorem callOn_after_of_ne (h : id ≠ c.caller) (s : Traffic) (told : List Deed)
    (x : Engine × Progress Climb Climb.Result) :
    (s.after c told x).callOn k id = s.callOn k id := by
  rw [callOn, get?_after_of_ne h]
  rfl

/-! ## Engines that mirror a login -/

/-- **Only the login has a cell**: no call on another login uses it, and the table has it for no
other one. -/
def Private (s : Traffic) (k : Login) (n : CellId) : Prop :=
  (∀ p ∈ s.calls, p.2.cell = n → p.2.key = k) ∧
    ∀ l, s.engine.profiles.table.get? l = some n → l = k

/-- **The second engine mirrors a login of the first one**: it has the calls on the login and no
others. -/
structure Mirrors (R : CellId → CellId → Prop) (k : Login) (s r : Traffic) : Prop where
  agree : s.engine.profiles.Agree R k r.engine.profiles
  calls : ∀ id, Option.Rel (Climb.Twin R k) (s.callOn k id) (r.calls.get? id)
  own : ∀ n m, R n m → s.Private k n
  notes : s.notesFor k = r.notesFor k

/-- No login has the number of the next cell. -/
theorem Sound.private_next {inv : Login → Option Profile → List Note → Prop}
    (h : s.Sound inv settings) (k : Login) : s.Private k s.engine.profiles.next := by
  obtain ⟨owner, h⟩ := h
  refine ⟨fun p hp hcell => ?_, fun l hl => ?_⟩
  · exact absurd hcell (Nat.ne_of_lt (h.housed p hp).1)
  · exact absurd (h.filed _ (Assoc.mem_of_get? hl)).1 (Nat.lt_irrefl _)

namespace Mirrors

theorem rel_none (h : Mirrors R k s r) (hnone : s.callOn k id = none) : r.calls.get? id = none := by
  have hcall := h.calls id
  rw [hnone] at hcall
  cases hr : r.calls.get? id with
  | none => rfl
  | some d =>
    rw [hr] at hcall
    cases hcall

theorem rel_some (h : Mirrors R k s r) (hsome : s.callOn k id = some c) :
    ∃ d, r.calls.get? id = some d ∧ c.Twin R k d := by
  have hcall := h.calls id
  rw [hsome] at hcall
  cases hr : r.calls.get? id with
  | none =>
    rw [hr] at hcall
    cases hcall
  | some d =>
    rw [hr] at hcall
    cases hcall with
    | some htwin => exact ⟨d, rfl, htwin⟩

/-- All that there is of the login is the same in both. -/
theorem aspect_eq (h : Mirrors R k s r) : s.aspect k = r.aspect k := by
  rw [aspect, aspect, h.agree.current?_eq, h.notes, Aspect.mk.injEq]
  refine ⟨rfl, funext fun id => ?_, rfl⟩
  cases hs : s.callOn k id with
  | none => rw [callOn_of_none (h.rel_none hs)]
  | some c =>
    obtain ⟨d, hd, htwin⟩ := h.rel_some hs
    rw [callOn_eq_some_iff.mpr ⟨hd, htwin.key_eq⟩]
    obtain ⟨-, m, -, rfl⟩ := htwin
    rfl

/-! ## An event on another login -/

/-- A call on another login has gone on. -/
theorem aside (h : Mirrors R k s r) (hkey : c.key ≠ k) (hnone : s.callOn k c.caller = none)
    (hcell : ∀ m, ¬ R c.cell m) (hagree : x.1.profiles.Agree R k r.engine.profiles)
    (hwaits : ∀ d, x.2 = .waits d → d.key = c.key ∧ d.cell = c.cell)
    (hfiled : ∀ l n, x.1.profiles.table.get? l = some n →
      s.engine.profiles.table.get? l = some n ∨ n = c.cell) :
    Mirrors R k (s.after c told x) r where
  agree := hagree
  calls id := by
    -- The call is on the other login before and after.
    have hcall : (s.after c told x).callOn k id = s.callOn k id := by
      by_cases hid : id = c.caller
      · subst hid
        rw [hnone]
        cases hd : (s.after c told x).callOn k c.caller with
        | none => rfl
        | some d =>
          obtain ⟨hd, hdkey⟩ := callOn_eq_some_iff.mp hd
          rcases get?_after hd with ⟨hne, -⟩ | ⟨-, hd⟩
          · exact absurd rfl hne
          · exact absurd ((hwaits d hd).1.symm.trans hdkey) hkey
      · exact callOn_after_of_ne hid s told x
    rw [hcall]
    exact h.calls id
  own n m hnm := by
    refine ⟨fun p hp hpn => ?_, fun l hl => ?_⟩
    · rw [calls_after] at hp
      obtain ⟨e, d | z⟩ := x
      · rcases List.mem_append.mp hp with hp | hp
        · exact (h.own n m hnm).1 p (List.mem_filter.mp hp).1 hpn
        · obtain rfl := List.mem_singleton.mp hp
          obtain rfl : d.cell = n := hpn
          exact absurd ((hwaits d rfl).2 ▸ hnm) (hcell m)
      · exact (h.own n m hnm).1 p (List.mem_filter.mp hp).1 hpn
    · rcases hfiled l n hl with hl | rfl
      · exact (h.own n m hnm).2 l hl
      · exact absurd hnm (hcell m)
  notes := by
    rw [notesFor_after, if_neg hkey]
    exact h.notes

/-- A call on another login goes on with a dialogue. -/
theorem aside_follow (h : Mirrors R k s r) (hkey : c.key ≠ k) (hnone : s.callOn k c.caller = none)
    (hcell : ∀ m, ¬ R c.cell m) (hagree : e.profiles.Agree R k r.engine.profiles)
    (hfiled : ∀ l n, e.profiles.table.get? l = some n →
      s.engine.profiles.table.get? l = some n ∨ n = c.cell) (talk : Talk Ending) :
    Mirrors R k (s.after c told (c.follow talk e)) r := by
  refine h.aside hkey hnone hcell (Climb.agree_follow_left hagree hkey hcell talk) (fun d hd => ?_)
    fun l n hl => hfiled l n (Climb.filed_of_follow talk hl)
  rcases c.follow_cases talk e with ⟨z, hz⟩ | ⟨q, next, hq⟩
  · cases hz.symm.trans hd
  · obtain rfl := Progress.waits.inj (hq.symm.trans hd)
    exact ⟨rfl, rfl⟩

/-- The cell of a call on another login is in no pair. -/
theorem unpaired (h : Mirrors R k s r) (call : s.calls.get? id = some c) (hkey : c.key ≠ k)
    (m : CellId) : ¬ R c.cell m :=
  fun hm => hkey ((h.own _ m hm).1 _ (Assoc.mem_of_get? call) rfl)

/-- A call on another login has come. -/
theorem entered (h : Mirrors R k s r) {key : Login} (hkey : key ≠ k) (id : CallId) :
    ((s.engine.entered id key).profiles.Agree R k r.engine.profiles ∧
      ∀ m, ¬ R (s.engine.profiles.openCell key none).1 m) ∧
    ∀ l n, (s.engine.entered id key).profiles.table.get? l = some n →
      s.engine.profiles.table.get? l = some n ∨ n = (s.engine.profiles.openCell key none).1 := by
  refine ⟨h.agree.enter_openCell_left (Ne.symm hkey) (fun n hn m hm => ?_) none id,
    fun l n hl => ?_⟩
  · exact hkey ((h.own n m hm).2 key hn)
  · by_cases hlkey : l = key
    · subst hlkey
      rw [Engine.get?_entered_self, Option.some.injEq] at hl
      exact .inr hl.symm
    · exact .inl ((Engine.get?_entered_of_ne hlkey ..).symm.trans hl)

/-- **An event on another login** changes nothing. -/
theorem step_aside (h : Mirrors R k s r) (hs : s.Sound Moves settings)
    (hev : s.concerns k ev = false) (hstep : s.step ev = some t) : Mirrors R k t r := by
  have hother {id : CallId} {c : Climb} (call : s.calls.get? id = some c)
      (hcall : (s.callOn k id).isSome = false) : c.key ≠ k := fun hkey => by
    rw [callOn_eq_some_iff.mpr ⟨call, hkey⟩] at hcall
    cases hcall
  cases happens hstep with
  | @queues id key command timeout on new =>
    have hkey : key ≠ k := of_decide_eq_false hev
    obtain ⟨⟨hagree, hcell⟩, hfiled⟩ := h.entered hkey id
    refine h.aside (c := .arrive id key command timeout on s.engine) hkey (callOn_of_none new k)
      hcell hagree (fun d hd => ?_) hfiled
    obtain rfl := Progress.waits.inj hd
    exact ⟨rfl, rfl⟩
  | @enters id key command timeout on new turn =>
    have hkey : key ≠ k := of_decide_eq_false hev
    obtain ⟨⟨hagree, hcell⟩, hfiled⟩ := h.entered hkey id
    exact h.aside_follow (c := .arrive id key command timeout on s.engine) hkey
      (callOn_of_none new k) hcell hagree hfiled _
  | begins call turn =>
    obtain rfl := hs.caller_eq call
    exact h.aside_follow (hother call hev) (callOn_of_ne call (hother call hev))
      (h.unpaired call (hother call hev)) h.agree (fun _ _ => .inl) _
  | hears call phase takes =>
    obtain rfl := hs.caller_eq call
    exact h.aside_follow (hother call hev) (callOn_of_ne call (hother call hev))
      (h.unpaired call (hother call hev)) h.agree (fun _ _ => .inl) _
  | @abandons id c call =>
    refine ⟨h.agree.release_left (h.unpaired call (hother call hev)) c.caller, fun i => ?_,
      fun n m hnm => ⟨fun p hp => (h.own n m hnm).1 p (List.mem_filter.mp hp).1,
        (h.own n m hnm).2⟩, h.notes⟩
    by_cases hi : i = id
    · subst hi
      rw [callOn, Assoc.get?_erase_self, h.rel_none (callOn_of_ne call (hother call hev))]
      exact .none
    · rw [callOn, Assoc.get?_erase_of_ne _ hi]
      exact h.calls i
  | clears host =>
    have hkept : ¬ (Event.clear host).Forgets k := fun hforgets => by
      rw [concerns_clear_iff.mpr hforgets] at hev
      cases hev
    exact ⟨h.agree.retable_left (Engine.filed_clear_of_kept hkept), h.calls, fun n m hnm =>
      ⟨(h.own n m hnm).1, fun l hl => (h.own n m hnm).2 l (Engine.filed_of_clear hl)⟩, h.notes⟩

/-! ## An event on the login -/

/-- A call on the login has gone on in both. -/
theorem together (h : Mirrors R k s r) (hold : ∀ n m, R n m → R' n m)
    (hown : ∀ n m, R' n m → s.Private k n) (hcd : c.Twin R' k d) (hxy : Climb.Abreast R' k x y)
    (hfiled : ∀ l n, x.1.profiles.table.get? l = some n →
      s.engine.profiles.table.get? l = some n ∨ l = k) :
    Mirrors R' k (s.after c told x) (r.after d told y) where
  agree := hxy.agree
  calls id := by
    by_cases hid : id = c.caller
    · -- In both engines the call waits again, or it is gone.
      subst hid
      rcases hxy.comes with ⟨c', d', hx, hy, htwin⟩ | ⟨z, hx, hy⟩
      · have hd' : (r.after d told y).calls.get? d.caller = some d' := get?_after_waits hy
        rw [hcd.caller_eq] at hd'
        rw [callOn_eq_some_iff.mpr ⟨get?_after_waits hx, htwin.1⟩, hd']
        exact .some htwin
      · have hd' : (r.after d told y).calls.get? d.caller = none := get?_after_ends hy
        rw [hcd.caller_eq] at hd'
        rw [callOn_of_none (get?_after_ends hx), hd']
        exact .none
    · rw [callOn_after_of_ne hid, get?_after_of_ne (hcd.caller_eq.symm ▸ hid)]
      have hcall := h.calls id
      generalize s.callOn k id = a at *
      generalize r.calls.get? id = b at *
      cases hcall with
      | none => exact .none
      | some htwin => exact .some (htwin.mono hold)
  own n m hnm := by
    refine ⟨fun p hp hpn => ?_, fun l hl => ?_⟩
    · rw [calls_after] at hp
      rcases hxy.comes with ⟨c', d', hx, -, htwin⟩ | ⟨z, hx, -⟩
      · rw [hx] at hp
        rcases List.mem_append.mp hp with hp | hp
        · exact (hown n m hnm).1 p (List.mem_filter.mp hp).1 hpn
        · obtain rfl := List.mem_singleton.mp hp
          exact htwin.1
      · rw [hx] at hp
        exact (hown n m hnm).1 p (List.mem_filter.mp hp).1 hpn
    · rcases hfiled l n hl with hl | rfl
      · exact (hown n m hnm).2 l hl
      · rfl
  notes := by
    rw [notesFor_after, notesFor_after, if_pos hcd.1, if_pos hcd.key_eq, hcd.notesOf_eq hxy,
      h.notes]

/-- A call on the login comes. -/
theorem call (h : Mirrors R k s r) (hs : s.Sound Moves settings) (hr : r.Sound Moves settings)
    (id : CallId) (command : String) (timeout : Duration) (on : Option ConnId) :
    ∃ R', Mirrors R' k
      (s.after (.arrive id k command timeout on s.engine) []
        (Climb.start id k command timeout on s.engine))
      (r.after (.arrive id k command timeout on r.engine) []
        (Climb.start id k command timeout on r.engine)) := by
  obtain ⟨R', hagree, hcells, hold, honly⟩ := h.agree.enter_openCell none id
  -- The pairs are those that there were, and the cell of the call, which may be new.
  refine ⟨R', h.together hold (fun n m hnm => ?_) ⟨rfl, _, hcells, rfl⟩
    (Climb.Twin.start hagree hcells (hs.settings_eq.trans hr.settings_eq.symm) command timeout on)
    fun l n hl => ?_⟩
  · rcases honly n m hnm with hnm | rfl
    · exact h.own n m hnm
    · exact hs.private_next k
  · by_cases hlk : l = k
    · exact .inr hlk
    · refine .inl ((Engine.get?_entered_of_ne hlk s.engine id).symm.trans ?_)
      rw [Climb.start_eq] at hl
      split at hl
      · exact Climb.filed_of_follow _ hl
      · exact hl

/-- **An event on the login** does the same in both. -/
theorem step_together (h : Mirrors R k s r) (hs : s.Sound Moves settings)
    (hr : r.Sound Moves settings) (hev : s.concerns k ev = true) (hstep : s.step ev = some t) :
    ∃ R' v, r.step ev = some v ∧ Mirrors R' k t v := by
  cases ev with
  | call id key command timeout on =>
    obtain rfl : key = k := of_decide_eq_true hev
    rw [step, Option.ite_none_left_eq_some, Option.some.injEq] at hstep
    obtain ⟨hnew, rfl⟩ := hstep
    have hnew : s.calls.get? id = none := by simpa [Assoc.has] using hnew
    obtain ⟨R', hcall⟩ := h.call hs hr id command timeout on
    refine ⟨R', _, ?_, hcall⟩
    rw [step, if_neg (by simp [Assoc.has, h.rel_none (callOn_of_none hnew key)])]
  | answer id a =>
    obtain ⟨c, hc⟩ := Option.isSome_iff_exists.mp hev
    obtain ⟨d, hd, htwin⟩ := h.rel_some hc
    rw [step, (callOn_eq_some_iff.mp hc).1, Option.bind_some, Option.ite_none_right_eq_some,
      Option.some.injEq] at hstep
    obtain ⟨hmay, rfl⟩ := hstep
    refine ⟨R, r.after d (d.told a) (d.resume a r.engine), ?_, ?_⟩
    · rw [step, hd, Option.bind_some, if_pos ((htwin.mayHear_eq h.agree a).trans hmay)]
    · rw [htwin.told_eq]
      exact h.together (fun _ _ hnm => hnm) h.own htwin
        (htwin.resume h.agree (hs.settings_eq.trans hr.settings_eq.symm) a)
        fun l n hl => .inl (Climb.filed_of_resume hl)
  | abandon id =>
    obtain ⟨c, hc⟩ := Option.isSome_iff_exists.mp hev
    obtain ⟨d, hd, htwin⟩ := h.rel_some hc
    rw [step, (callOn_eq_some_iff.mp hc).1, Option.map_some, Option.some.injEq] at hstep
    subst hstep
    refine ⟨R, { r with engine := d.abandon r.engine, calls := r.calls.erase id }, ?_, ?_, ?_, ?_,
      h.notes⟩
    · rw [step, hd, Option.map_some]
    · obtain ⟨-, m, hm, rfl⟩ := htwin
      exact h.agree.release hm c.caller
    · intro i
      by_cases hi : i = id
      · subst hi
        rw [callOn, Assoc.get?_erase_self, Assoc.get?_erase_self]
        exact .none
      · rw [callOn, Assoc.get?_erase_of_ne _ hi, Assoc.get?_erase_of_ne _ hi]
        exact h.calls i
    · exact fun n m hnm =>
        ⟨fun p hp => (h.own n m hnm).1 p (List.mem_filter.mp hp).1, (h.own n m hnm).2⟩
  | clear host =>
    obtain rfl := Option.some.inj hstep
    have hforgets := concerns_clear_iff.mp hev
    exact ⟨R, { r with engine := (r.engine.clear host).2 }, rfl,
      h.agree.unfile (Engine.filed_clear_of_forgets hforgets)
        (Engine.filed_clear_of_forgets hforgets), h.calls,
      fun n m hnm => ⟨(h.own n m hnm).1,
        fun l hl => (h.own n m hnm).2 l (Engine.filed_of_clear hl)⟩, h.notes⟩

/-! ## Runs -/

/-- **The events on a login do the same alone.** -/
protected theorem run (h : Mirrors R k s r) (hs : s.Sound Moves settings)
    (hr : r.Sound Moves settings) (hrun : s.run es = some u) :
    ∃ R' v, r.run (s.eventsOn k es) = some v ∧ Mirrors R' k u v := by
  have hall := Moves.fulfils_ascend settings
  induction es generalizing s r R with
  | nil =>
    obtain rfl := Option.some.inj hrun
    exact ⟨R, r, rfl, h⟩
  | cons ev es ih =>
    obtain ⟨t, ht, hrun⟩ := Option.bind_eq_some_iff.mp hrun
    have hlater := hs.step (fun _ => .start) hall ht
    rw [eventsOn, ht]
    -- An event on another login happens in the first engine alone.
    cases hev : s.concerns k ev with
    | false => exact ih (h.step_aside hs hev ht) hlater hr hrun
    | true =>
      obtain ⟨R', v, hv, hmirrors⟩ := h.step_together hs hr hev ht
      obtain ⟨R', w, hw, hmirrors⟩ := ih hmirrors hlater (hr.step (fun _ => .start) hall hv) hrun
      refine ⟨R', w, ?_, hmirrors⟩
      rw [if_pos rfl, run, hv]
      exact hw

end Mirrors

/-- **Runs cannot tell two engines apart on a login.**  Whatever happens on the first one, the
events of it that are on the login can happen alone on the second one; and whenever the same events
on the login happen on both, whatever else happens in between, there is the same of the login. -/
structure Interchangeable (k : Login) (s t : Traffic) : Prop where
  alone : ∀ es u, s.run es = some u →
    ∃ w, t.run (s.eventsOn k es) = some w ∧ w.aspect k = u.aspect k
  same : ∀ es u fs w, s.run es = some u → t.run fs = some w →
    t.eventsOn k fs = s.eventsOn k es → w.aspect k = u.aspect k

/-- Two engines that are mirrored by the second one. -/
theorem Mirrors.interchangeable (h : Mirrors R k s t) (h' : Mirrors R' k t t)
    (hs : s.Sound Moves settings) (ht : t.Sound Moves settings) : Interchangeable k s t where
  alone es u hu := by
    obtain ⟨_, w, hw, hmirrors⟩ := h.run hs ht hu
    exact ⟨w, hw, hmirrors.aspect_eq.symm⟩
  same es u fs w hu hw hsame := by
    obtain ⟨_, v, hv, hmirrors⟩ := h.run hs ht hu
    obtain ⟨_, v', hv', hmirrors'⟩ := h'.run ht ht hw
    obtain rfl : v = v' := Option.some.inj (hv.symm.trans (hsame ▸ hv'))
    rw [hmirrors.aspect_eq, hmirrors'.aspect_eq]

/-- The cell that the table has for a login is its own. -/
theorem Sound.private_filed {inv : Login → Option Profile → List Note → Prop}
    (h : s.Sound inv settings) (hk : s.engine.profiles.table.get? k = some n) : s.Private k n := by
  obtain ⟨owner, h⟩ := h
  have hn : owner n = k := (h.filed _ (Assoc.mem_of_get? hk)).2
  refine ⟨fun p hp hcell => ?_, fun l hl => ?_⟩
  · rw [← hn, ← hcell]
    exact (h.housed p hp).2.symm
  · exact (h.filed _ (Assoc.mem_of_get? hl)).2.symm.trans hn

/-- **Forgetting other logins is not noticed**: two engines at rest that have the same cells, and
the same one for the login, mirror the login of each other. -/
theorem Mirrors.of_rest (hs : s.Sound Moves settings)
    (hsrest : s.calls = []) (htrest : t.calls = [])
    (hcells : t.engine.profiles.cells = s.engine.profiles.cells)
    (hnext : t.engine.profiles.next = s.engine.profiles.next)
    (hfiled : t.engine.profiles.table.get? k = s.engine.profiles.table.get? k)
    (hjournal : t.journal = s.journal) :
    Mirrors (fun n m => n = m ∧ s.engine.profiles.table.get? k = some n) k s t where
  agree := by
    refine ⟨?_, ?_, ?_, ?_⟩
    · rw [hfiled]
      cases hk : s.engine.profiles.table.get? k with
      | none => exact .none
      | some n => exact .some ⟨rfl, rfl⟩
    · rintro n m ⟨rfl, -⟩
      rw [Cells.cell?, Cells.cell?, hcells]
    · rintro n m ⟨rfl, hk⟩
      obtain ⟨owner, hs⟩ := hs
      have hn := (hs.filed _ (Assoc.mem_of_get? hk)).1
      exact ⟨hn, hnext.symm ▸ hn⟩
    · rintro n m n' m' ⟨rfl, -⟩ ⟨rfl, -⟩
      exact Iff.rfl
  calls id := by
    rw [callOn, hsrest, htrest]
    exact .none
  own n m hnm := hs.private_filed hnm.2
  notes := by rw [notesFor, notesFor, hjournal]

end Traffic

end RemoteShell.Elevation
