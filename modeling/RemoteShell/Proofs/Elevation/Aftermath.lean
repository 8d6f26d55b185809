import RemoteShell.Proofs.Cells.Handles
import RemoteShell.Proofs.Elevation.Faults
import RemoteShell.Proofs.Elevation.Serial

/-!
# After a fault

What is left of a call that ends in the fault of a command.  The profile of the login is as it was
when the command was sent, and so are the stored secrets, for the call does nothing between the two
but hear the fault.  If the command was that of the caller, its method is trusted still; if it was a
probe there is no profile, and a call that was alone on the login takes the cell of the login out of
the table, so that the next call finds out everything anew.

That the cell is taken out rests on its handles: calls that have been given up, and calls on cells
that have left the table, must not be counted any more.

## Main definitions

* `Traffic.Attended`: handles and queues agree with the calls
* `Traffic.Owned`: a login belongs to one call, or to none
* `Traffic.Afresh`: the next call on a login finds out everything anew

## Main results

* `Traffic.Attended.run`, `Traffic.Owned.run`: both are kept
* `Traffic.afresh_of_owned`: a login that belongs to no call
* `Traffic.fault_leaves_all`: what is left of a call that ends in a fault
-/

namespace RemoteShell.Elevation

variable {settings : ElevationSettings} {inv : Login → Option Profile → List Note → Prop}
  {c : Climb} {e : Engine} {calls : Assoc CallId Climb} {k : Login} {n : CellId} {x : Ending}
  {f : Fault} {q : Query} {d : Deed} {u v w : Option Profile} {h : List Note} {caller : CallId}
  {command : String} {timeout : Duration}

/-! ## Cells that are left alone -/

theorem next_retire (cs : Cells Login (Option Profile)) (k : Login)
    (mayGo : Cell (Option Profile) → Bool) : (cs.retire k mayGo).next = cs.next := by
  unfold Cells.retire
  split <;> rfl

theorem Climb.attended_finish (h : Cells.Attended e.profiles (users (calls ++ [(c.caller, c)])))
    (x : Ending) : Cells.Attended (c.finish x e).1.profiles (users calls) := by
  rw [users_append_singleton] at h
  have hreleased : Cells.Attended (c.release e).profiles (users calls) := h.release
  cases x with
  | finished r => exact hreleased
  | crashed => exact hreleased
  | undetected f => exact hreleased.congr (Cells.cells_retire ..) (next_retire ..)

/-- A call that goes on stays the same user, or gives its cell back. -/
theorem Climb.attended_follow (h : Cells.Attended e.profiles (users (calls ++ [(c.caller, c)])))
    (t : Talk Ending) :
    Cells.Attended (c.follow t e).1.profiles (users (joined calls c (c.follow t e).2)) := by
  induction t generalizing e with
  | done y =>
    obtain ⟨table, -, hfinish⟩ := c.finish_eq y e
    have hfinished := c.attended_finish h y
    rw [follow]
    rw [hfinish] at hfinished ⊢
    exact hfinished
  | ask q next ih =>
    rcases q.outward_or_keep with hq | ⟨p, rfl⟩
    · rw [users_append_singleton] at h
      rw [c.follow_ask hq]
      exact (users_append_singleton calls { c with phase := .talking (.ask q next) }).symm ▸ h
    · exact ih () (h.setValue c.cell (some p))

/-- A call that goes on at most takes the cell of its login out of the table. -/
theorem Climb.filed_of_follow (t : Talk Ending)
    (hk : (c.follow t e).1.profiles.table.get? k = some n) :
    e.profiles.table.get? k = some n := by
  induction t generalizing e with
  | done y =>
    cases y with
    | finished r => exact hk
    | crashed => exact hk
    | undetected f =>
      change (Cells.retire ..).table.get? k = some n at hk
      unfold Cells.retire at hk
      split at hk
      · by_cases hkey : k = c.key
        · subst hkey
          exact absurd ((Assoc.get?_erase_self ..).symm.trans hk) (Option.some_ne_none n).symm
        · exact (Assoc.get?_erase_of_ne _ hkey).symm.trans hk
      · exact hk
  | ask q next ih =>
    rcases q.outward_or_keep with hq | ⟨p, rfl⟩
    · rw [c.follow_ask hq] at hk
      exact hk
    · exact ih () (e := { e with profiles := e.profiles.setValue c.cell (some p) }) hk

/-- **A cell without a profile is taken out of the table** when nobody uses it. -/
theorem Climb.get?_dropUndetected {us : List (Cells.User Login)}
    (h : Cells.Attended e.profiles us)
    (hfiled : ∀ n, e.profiles.table.get? k = some n →
      (∀ u ∈ us, u.cell ≠ n) ∧ ∃ y, e.profiles.cell? n = some y ∧ y.value = none) :
    (dropUndetected e k).profiles.table.get? k = none := by
  unfold dropUndetected Cells.retire
  cases hk : e.profiles.table.get? k with
  | none =>
    rw [Cells.current?, hk]
    exact hk
  | some n =>
    obtain ⟨hnobody, y, hy, hvalue⟩ := hfiled n hk
    obtain ⟨hholder, hhandles⟩ := h.left_alone hy hnobody
    have hgoes : (e.profiles.current? k).any
        (fun y => y.handles == 0 && (y.holder.isNone && y.value.isNone)) = true := by
      rw [Cells.current?, hk, Option.bind_some, hy]
      simp [hholder, hhandles, hvalue]
    rw [if_pos hgoes]
    exact Assoc.get?_erase_self ..

/-! ## Logins without a cell -/

theorem Engine.get?_entered_of_ne {key : Login} (hk : k ≠ key) (e : Engine) (id : CallId) :
    (e.entered id key).profiles.table.get? k = e.profiles.table.get? k := by
  change (Cells.withCell ..).2.table.get? k = _
  unfold Cells.withCell
  split
  · rfl
  · exact Assoc.get?_put_of_ne _ _ hk

theorem Engine.get?_entered_self (e : Engine) (id : CallId) (k : Login) :
    (e.entered id k).profiles.table.get? k = some (e.profiles.openCell k none).1 := by
  change (Cells.withCell ..).2.table.get? k = some (Cells.withCell ..).1
  unfold Cells.withCell
  split
  · next hk => exact hk
  · exact Assoc.get?_put_self ..

/-- **A call on a login without a cell** gets the lock at once, and finds out everything anew. -/
theorem Climb.start_of_unfiled (hk : e.profiles.table.get? k = none) (id : CallId)
    (command : String) (timeout : Duration) (on : Option ConnId) :
    Climb.start id k command timeout on e = (e.entered id k,
      .waits { arrive id k command timeout on e with
        phase := .talking (ascend e.settings k command timeout none) }) := by
  have hcell : (e.entered id k).profiles.cell? (e.profiles.openCell k none).1 =
      some ⟨none, some id, [], 1⟩ := Cells.cell?_enter_openCell_of_unfiled hk none id
  have hadmitted : (arrive id k command timeout on e).admitted (e.entered id k) = true :=
    Cells.admits_iff.mpr ⟨_, hcell, rfl⟩
  have hvalue : ((e.entered id k).profiles.value? (arrive id k command timeout on e).cell).join =
      none := by
    change (Option.map Cell.value ((e.entered id k).profiles.cell?
      (e.profiles.openCell k none).1)).join = none
    rw [hcell]
    rfl
  rw [start_eq, if_pos hadmitted, begin, hvalue]
  rfl

/-! ## The notes before a fault -/

namespace Moves

/-- What was answered was asked before. -/
theorem asked {a : q.Answer}
    (hm : Moves k w (.mk caller k command timeout d :: .mk caller k command timeout (.leaves u) ::
      .mk caller k command timeout (.hears q a) :: h)) :
    ∃ older, h = .mk caller k command timeout (.asks q) :: older := by
  cases hm with
  | turn _ _ _ before _ => exact absurd before not_hears
  | answer before _ => exact ⟨_, rfl⟩

/-- A call leaves its profile before it asks, and there is none where it sends a probe. -/
theorem left (hm : Moves k v (.mk caller k command timeout (.asks q) :: h)) :
    (∃ older, h = .mk caller k command timeout (.leaves v) :: older) ∧
      ∀ sent limit, q = .run (.probe sent limit) → v = none := by
  cases hm with
  | turn _ _ _ _ fair => exact ⟨⟨_, rfl⟩, fun sent limit hq => fair.probes sent limit (hq ▸ rfl)⟩
  | answer _ fair => exact ⟨⟨_, rfl⟩, fun sent limit hq => fair.probes sent limit (hq ▸ rfl)⟩

end Moves

/-- A profile that has just been left trusts what is vouched for. -/
theorem Vouched.trusts {m : Method} {password : Option String} {x : Note}
    (hm : Vouched k m password (x :: h)) (hx : x.deed = .leaves v) :
    ∃ p, v = some p ∧ p.Trusts m password := by
  obtain ⟨later, y, earlier, hsplit, ⟨-, limit, r, hchecks, -⟩, htrusting⟩ := hm
  cases later with
  | nil =>
    obtain ⟨rfl, -⟩ := List.cons.inj hsplit
    rw [hx] at hchecks
    cases hchecks
  | cons z later =>
    obtain ⟨rfl, -⟩ := List.cons.inj hsplit
    have hleft : x.Trusting m password := htrusting x List.mem_cons_self
    unfold Note.Trusting at hleft
    rwa [hx] at hleft

namespace Traffic

variable {s t : Traffic} {ev : Event} {es : List Event} {own : Option (CallId × CellId)}

/-! ## Handles and queues -/

/-- **Handles and queues agree with the calls.** -/
def Attended (s : Traffic) : Prop := Cells.Attended s.engine.profiles (users s.calls)

namespace Attended

theorem keyed (h : s.Attended) : s.calls.Keyed := by
  have := h.callers
  rwa [users, List.map_map] at this

/-- A call is taken from among the others. -/
theorem split (h : s.Attended) (hc : s.calls.get? c.caller = some c) :
    Cells.Attended s.engine.profiles (users (s.calls.erase c.caller ++ [(c.caller, c)])) :=
  Cells.Attended.perm h (List.Perm.map _
    ((h.keyed.perm_cons_erase hc).trans (List.perm_append_singleton _ _).symm))

/-- A call has come. -/
theorem entered (h : s.Attended) (hs : s.Sound Moves settings) {id : CallId}
    (hnew : s.calls.get? id = none) (key : Login) (command : String) (timeout : Duration)
    (on : Option ConnId) :
    Cells.Attended (s.engine.entered id key).profiles
      (users (s.calls.erase id ++ [(id, .arrive id key command timeout on s.engine)])) := by
  obtain ⟨owner, hs⟩ := hs
  obtain ⟨-, -, hmade, -⟩ := hs.entered (fun _ => .start) id key
  rw [Assoc.erase_of_get?_eq_none hnew]
  have hid : ∀ u ∈ users s.calls, u.caller ≠ id := by
    intro u hu
    obtain ⟨p, hp, rfl⟩ := List.mem_map.mp hu
    rintro rfl
    have hget : s.calls.get? p.1 = some p.2 := h.keyed.get?_eq_some_iff.mpr hp
    rw [hnew] at hget
    cases hget
  have := Cells.Attended.enter_openCell h key none hmade hid
  rwa [users, List.map_append]

theorem after {told : List Deed} {z : Engine × Progress Climb Climb.Result}
    (h : Cells.Attended z.1.profiles (users (joined (s.calls.erase c.caller) c z.2))) :
    (s.after c told z).Attended := by
  rw [Attended, calls_after]
  exact h

/-- **An event keeps it**, whatever is forgotten. -/
theorem step (h : s.Attended) (hs : s.Sound Moves settings) (hstep : s.step ev = some t) :
    t.Attended := by
  cases happens hstep with
  | queues new => exact after (h.entered hs new ..)
  | enters new turn => exact after (Climb.attended_follow (h.entered hs new ..) _)
  | begins call turn =>
    obtain rfl := hs.caller_eq call
    exact after (Climb.attended_follow (h.split call) _)
  | hears call phase takes =>
    obtain rfl := hs.caller_eq call
    exact after (Climb.attended_follow (h.split call) _)
  | abandons call =>
    obtain rfl := hs.caller_eq call
    have hsplit := h.split call
    rw [users_append_singleton] at hsplit
    exact hsplit.release
  | clears host => exact h.congr rfl rfl

protected theorem run (h : s.Attended) (hs : s.Sound Moves settings) (hrun : s.run es = some t) :
    t.Attended := by
  induction es generalizing s with
  | nil =>
    obtain rfl := Option.some.inj hrun
    exact h
  | cons ev es ih =>
    obtain ⟨u, hu, hrun⟩ := Option.bind_eq_some_iff.mp hrun
    exact ih (h.step hs hu) (hs.step (fun _ => .start) (Moves.fulfils_ascend settings) hu) hrun

end Attended

/-! ## Logins that belong to a call -/

/-- **A login belongs to one call**, or to none: no other call is under way on it, and the table has
no cell for it but that of the call. -/
structure Owned (s : Traffic) (k : Login) (own : Option (CallId × CellId)) : Prop where
  filed : ∀ n, s.engine.profiles.table.get? k = some n → ∃ id, own = some (id, n)
  calls : ∀ p ∈ s.calls, p.2.key = k → own = some (p.1, p.2.cell)

namespace Owned

theorem after {told : List Deed} {z : Engine × Progress Climb Climb.Result} (h : s.Owned k own)
    (hfiled : ∀ n, z.1.profiles.table.get? k = some n → s.engine.profiles.table.get? k = some n)
    (hwaits : ∀ d, z.2 = .waits d → d.key = k → own = some (c.caller, d.cell)) :
    (s.after c told z).Owned k own where
  filed n hn := h.filed n (hfiled n hn)
  calls p hp hkey := by
    rw [calls_after] at hp
    obtain ⟨e, d | r⟩ := z
    · rcases List.mem_append.mp hp with hp | hp
      · exact h.calls p (List.mem_filter.mp hp).1 hkey
      · obtain rfl := List.mem_singleton.mp hp
        exact hwaits d rfl hkey
    · exact h.calls p (List.mem_filter.mp hp).1 hkey

/-- A call that is under way goes on. -/
theorem follow {told : List Deed} (h : s.Owned k own) (call : (c.caller, c) ∈ s.calls)
    (t : Talk Ending) : (s.after c told (c.follow t s.engine)).Owned k own := by
  refine h.after (fun n hn => Climb.filed_of_follow t hn) fun d hd hkey => ?_
  rcases c.follow_cases t s.engine with ⟨r, hr⟩ | ⟨q, next, hq⟩
  · rw [hr] at hd
    cases hd
  · rw [hq] at hd
    obtain rfl := Progress.waits.inj hd
    exact h.calls _ call hkey

/-- An event keeps it that is no call on the login. -/
theorem step (h : s.Owned k own) (hs : s.Sound inv settings)
    (hcalls : ∀ id command timeout on, ev ≠ .call id k command timeout on)
    (hstep : s.step ev = some t) : t.Owned k own := by
  cases happens hstep with
  | @queues id key command timeout on new =>
    have hkey : k ≠ key := by
      rintro rfl
      exact hcalls _ _ _ _ rfl
    refine h.after (fun n hn => (Engine.get?_entered_of_ne hkey ..).symm.trans hn) fun d hd hk => ?_
    obtain rfl := Progress.waits.inj hd
    exact absurd hk.symm hkey
  | @enters id key command timeout on new turn =>
    have hkey : k ≠ key := by
      rintro rfl
      exact hcalls _ _ _ _ rfl
    refine h.after (fun n hn => ?_) fun d hd hk => ?_
    · exact (Engine.get?_entered_of_ne hkey ..).symm.trans (Climb.filed_of_follow _ hn)
    · exact absurd ((Climb.key_follow hd).symm.trans hk).symm hkey
  | begins call turn =>
    obtain rfl := hs.caller_eq call
    exact h.follow (Assoc.mem_of_get? call) _
  | hears call phase takes =>
    obtain rfl := hs.caller_eq call
    exact h.follow (Assoc.mem_of_get? call) _
  | abandons call => exact ⟨h.filed, fun p hp => h.calls p (List.mem_filter.mp hp).1⟩
  | clears host => exact ⟨fun n hn => h.filed n (Engine.filed_of_clear hn), h.calls⟩

/-- Events keep it that are no calls on the login. -/
protected theorem run (h : s.Owned k own) (hs : s.Sound Moves settings)
    (hcalls : ∀ id command timeout on, .call id k command timeout on ∉ es)
    (hrun : s.run es = some t) : t.Owned k own := by
  induction es generalizing s with
  | nil =>
    obtain rfl := Option.some.inj hrun
    exact h
  | cons ev es ih =>
    obtain ⟨u, hu, hrun⟩ := Option.bind_eq_some_iff.mp hrun
    refine ih (h.step hs (fun id command timeout on hev => ?_) hu)
      (hs.step (fun _ => .start) (Moves.fulfils_ascend settings) hu)
      (fun id command timeout on hmem =>
        hcalls id command timeout on (List.mem_cons_of_mem _ hmem)) hrun
    exact hcalls id command timeout on (hev ▸ List.mem_cons_self)

/-- **A login belongs to a call that comes** while no other call on the login is under way. -/
theorem of_call {id : CallId} {on : Option ConnId} (hnobody : ∀ p ∈ s.calls, p.2.key ≠ k)
    (hstep : s.step (.call id k command timeout on) = some t) :
    t.Owned k (some (id, (s.engine.profiles.openCell k none).1)) := by
  have hthis {z : Engine × Progress Climb Climb.Result} {told : List Deed}
      (hfiled : ∀ n, z.1.profiles.table.get? k = some n →
        (s.engine.entered id k).profiles.table.get? k = some n)
      (hwaits : ∀ d, z.2 = .waits d → d.cell = (s.engine.profiles.openCell k none).1) :
      (s.after (.arrive id k command timeout on s.engine) told z).Owned k
        (some (id, (s.engine.profiles.openCell k none).1)) := by
    refine ⟨fun n hn => ⟨id, ?_⟩, fun p hp hkey => ?_⟩
    · have := hfiled n hn
      rw [Engine.get?_entered_self, Option.some.injEq] at this
      rw [this]
    · rw [calls_after] at hp
      obtain ⟨e, d | r⟩ := z
      · rcases List.mem_append.mp hp with hp | hp
        · exact absurd hkey (hnobody p (List.mem_filter.mp hp).1)
        · obtain rfl := List.mem_singleton.mp hp
          exact congrArg (fun n => some (id, n)) (hwaits d rfl).symm
      · exact absurd hkey (hnobody p (List.mem_filter.mp hp).1)
  cases happens hstep with
  | queues new =>
    refine hthis (fun n hn => hn) fun d hd => ?_
    obtain rfl := Progress.waits.inj hd
    rfl
  | enters new turn =>
    refine hthis (fun n hn => Climb.filed_of_follow _ hn) fun d hd => ?_
    rcases Climb.follow_cases _ _ _ with ⟨r, hr⟩ | ⟨q, next, hq⟩
    · cases hr.symm.trans hd
    · obtain rfl := Progress.waits.inj (hq.symm.trans hd)
      rfl

end Owned

/-! ## After a fault -/

/-- **A call on a login finds out everything anew**: the login has no cell, and a call that comes
under a new number gets the lock and begins without a profile. -/
def Afresh (settings : ElevationSettings) (s : Traffic) (k : Login) : Prop :=
  s.engine.profiles.table.get? k = none ∧ ∀ id command timeout on, s.calls.get? id = none →
    ∃ t d, s.step (.call id k command timeout on) = some t ∧ t.calls.get? id = some d ∧
      d.phase = .talking (ascend settings k command timeout none)

/-- A login that belongs to no call has no cell. -/
theorem Owned.afresh (h : s.Owned k none) (hs : s.Sound inv settings) : s.Afresh settings k := by
  have hk : s.engine.profiles.table.get? k = none := by
    refine Option.eq_none_iff_forall_ne_some.mpr fun n hn => ?_
    obtain ⟨id, hid⟩ := h.filed n hn
    cases hid
  refine ⟨hk, fun id command timeout on hnew => ?_⟩
  have hstep : s.step (.call id k command timeout on) = some (s.after
      (.arrive id k command timeout on s.engine) [] (Climb.start id k command timeout on
        s.engine)) := by
    rw [Traffic.step, if_neg (by simp [Assoc.has, hnew])]
  rw [Climb.start_of_unfiled hk, hs.settings_eq] at hstep
  exact ⟨_, _, hstep, get?_after_waits rfl, rfl⟩

/-- **A call is alone on its login**: it comes while no other call is under way on the login, and
none comes after it. -/
def Lone (settings : ElevationSettings) (c : Climb) (es : List Event) : Prop :=
  ∃ before during s, es = before ++ .call c.caller c.key c.command c.timeout c.on :: during ∧
    (idle settings).run before = some s ∧ (∀ p ∈ s.calls, p.2.key ≠ c.key) ∧
    ∀ id command timeout on, .call id c.key command timeout on ∉ during

/-- The login of a call that is alone belongs to the call. -/
theorem Lone.owned (h : Lone settings c es) (hrun : (idle settings).run es = some s)
    (call : s.calls.get? c.caller = some c) : s.Owned c.key (some (c.caller, c.cell)) := by
  obtain ⟨before, during, u, rfl, hu, hnobody, hduring⟩ := h
  rw [run_append, hu, Option.bind_some] at hrun
  obtain ⟨w, hw, hrun⟩ := Option.bind_eq_some_iff.mp hrun
  have hall := Moves.fulfils_ascend settings
  have hs : u.Sound Moves settings := Sound.idle.run (fun _ => .start) hall hu
  have howned := (Owned.of_call hnobody hw).run (hs.step (fun _ => .start) hall hw) hduring hrun
  -- The call is one of those on the login, so it is the one that the login belongs to.
  rw [howned.calls _ (Assoc.mem_of_get? call) rfl] at howned
  exact howned

/-- The notes of a call that ends when it has heard a fault. -/
theorem record_finish (hs : s.Sound Moves settings) {d : Errand}
    (call : s.calls.get? c.caller = some c) (hx : x.result = .finished (.error f))
    (ht : (s.after c [.hears (.run d) (.error f)] (c.finish x s.engine)).Sound Moves settings) :
    ∃ older, (s.after c [.hears (.run d) (.error f)] (c.finish x s.engine)).record c.cell =
      [.ends (.finished (.error f)), .leaves (s.engine.profiles.value? c.cell).join,
        .hears (.run d) (.error f), .asks (.run d),
        .leaves (s.engine.profiles.value? c.cell).join].map c.note ++ older ∧
      ∀ sent limit, d = .probe sent limit → (s.engine.profiles.value? c.cell).join = none := by
  have hnotes : notesOf c [.hears (.run d) (.error f)] (c.finish x s.engine) =
      [.ends (.finished (.error f)), .leaves (s.engine.profiles.value? c.cell).join,
        .hears (.run d) (.error f)].map c.note := by
    obtain ⟨table, -, hfinish⟩ := c.finish_eq x s.engine
    rw [notesOf, c.value?_finish, hfinish, hx]
    rfl
  have hrecord : (s.after c [.hears (.run d) (.error f)] (c.finish x s.engine)).record c.cell =
      [.ends (.finished (.error f)), .leaves (s.engine.profiles.value? c.cell).join,
        .hears (.run d) (.error f)].map c.note ++ s.record c.cell := by
    rw [record, Traffic.after, hnotes, notesOn_append, notesOn_self]
    rfl
  obtain ⟨k, hmoves⟩ := ht.exists_kept (n := c.cell) (y := c.note (.ends (.finished (.error f))))
    (by rw [hrecord]; exact List.mem_cons_self)
  rw [hrecord] at hmoves
  obtain rfl : c.key = k := hmoves.keyed _ List.mem_cons_self
  obtain ⟨older, holder⟩ := hmoves.asked
  change s.record c.cell = _ at holder
  have hbefore : Moves c.key (s.engine.profiles.value? c.cell).join (s.record c.cell) := by
    obtain ⟨owner, hs⟩ := hs
    obtain ⟨hmade, howner⟩ := hs.housed _ (Assoc.mem_of_get? call)
    obtain ⟨y, hy⟩ := hs.made _ hmade
    have hkept := hs.kept _ y (Option.some_ne_none _).symm hy
    rw [howner] at hkept
    rwa [Cells.value?, hy]
  rw [holder] at hbefore
  obtain ⟨⟨older', rfl⟩, hprobe⟩ := hbefore.left
  refine ⟨older', ?_, fun sent limit hd => hprobe sent limit (hd ▸ rfl)⟩
  rw [hrecord, holder]
  rfl

/-- **A login without a profile is found out anew** after a call that was alone on it. -/
theorem Owned.of_undetected (hattended : s.Attended) (hs : s.Sound Moves settings)
    (howned : s.Owned c.key (some (c.caller, c.cell))) (call : s.calls.get? c.caller = some c)
    (hvalue : (s.engine.profiles.value? c.cell).join = none) {told : List Deed}
    (ht : (s.after c told (c.finish (.undetected f) s.engine)).Owned c.key
      (some (c.caller, c.cell))) :
    (s.after c told (c.finish (.undetected f) s.engine)).Owned c.key none := by
  have hcalls : (s.after c told (c.finish (.undetected f) s.engine)).calls =
      s.calls.erase c.caller := rfl
  refine ⟨fun n hn => ?_, fun p hp hkey => ?_⟩
  · have hsplit := hattended.split call
    rw [users_append_singleton] at hsplit
    have hdropped : (Climb.dropUndetected (c.release s.engine) c.key).profiles.table.get? c.key =
        none := by
      refine Climb.get?_dropUndetected hsplit.release fun m hm => ?_
      obtain ⟨id, hid⟩ := howned.filed m hm
      obtain rfl : c.cell = m := congrArg Prod.snd (Option.some.inj hid)
      refine ⟨fun u hu hcell => ?_, ?_⟩
      · -- Another call with this cell would be one on the login.
        obtain ⟨p, hp, rfl⟩ := List.mem_map.mp hu
        obtain ⟨hp, hne⟩ := List.mem_filter.mp hp
        obtain ⟨owner, hs⟩ := hs
        have hkey : p.2.key = c.key := by
          rw [← (hs.housed p hp).2, ← (hs.housed _ (Assoc.mem_of_get? call)).2]
          exact congrArg owner hcell
        have hp' := howned.calls p hp hkey
        rw [Option.some.injEq, Prod.mk.injEq] at hp'
        exact absurd hp'.1.symm (of_decide_eq_true hne)
      · obtain ⟨owner, hs⟩ := hs
        obtain ⟨y, hy⟩ := hs.made _ (hs.housed _ (Assoc.mem_of_get? call)).1
        rw [Cells.value?, hy] at hvalue
        obtain ⟨z, hz, hvalue'⟩ := c.cell?_release s.engine hy
        exact ⟨z, hz, hvalue'.trans hvalue⟩
    exact absurd (hdropped.symm.trans hn) (Option.some_ne_none n).symm
  · have hmem : p ∈ s.calls.erase c.caller := hcalls ▸ hp
    have hown := ht.calls p hp hkey
    rw [Option.some.injEq, Prod.mk.injEq] at hown
    exact absurd hown.1.symm (ne_of_mem_erase p hmem)

/-- **What is left of a call that ends in a fault** of its own.  The fault is that of an errand, and
the call ends as soon as it is told: after the errand it asks for nothing, tries no other method and
stores or deletes no secret, and the profile is as it was when the errand was sent; neither does its
end change what is known of any login.

If the errand was a probe, there is no profile; and if no other call was on the login all the while,
the login has no cell any more, and the next call on it, whenever it comes, finds out everything
anew.  If the errand was a check, it is not that it came back too late.  If it ran the command of
the caller with a method, the profile trusts the method still: it is verified with its password and
not marked failed. -/
theorem fault_leaves_all {es : List Event} {s t : Traffic} {ev : Event} {c : Climb} {f : Fault}
    (hrun : (idle settings).run es = some s) (hstep : s.step ev = some t)
    (hends : s.Ends ev c (.finished (.error f))) (hf : f.kind ≠ .elevationUnavailable) :
    ∃ (d : Errand) (v : Option Profile) (older : List Note),
      t.record c.cell = [.ends (.finished (.error f)), .leaves v, .hears (.run d) (.error f),
        .asks (.run d), .leaves v].map c.note ++ older ∧
      (t.engine.profiles.value? c.cell).join = v ∧ (∀ k, t.engine.known k = s.engine.known k) ∧
      t.calls.get? c.caller = none ∧
      match d with
      | .probe .. => f.kind ≠ .commandTimeout ∧ v = none ∧ (Lone settings c es →
          ∀ later u, t.run later = some u →
            (∀ id command timeout on, .call id c.key command timeout on ∉ later) →
              u.Afresh settings c.key)
      | .check .. => f.kind ≠ .commandTimeout
      | .plain .. => True
      | .elevated m password command timeout => command = c.command ∧ timeout = c.timeout ∧
          ∃ p, v = some p ∧ p.Trusts m password := by
  have hall := Moves.fulfils_ascend settings
  have hs : s.Sound Moves settings := Sound.idle.run (fun _ => .start) hall hrun
  have ht : t.Sound Moves settings := hs.step (fun _ => .start) hall hstep
  have hrunt : (idle settings).run (es ++ [ev]) = some t := by
    rw [run_append, hrun, Option.bind_some, run, hstep]
    rfl
  obtain ⟨d, x, hd, -, call, rfl, rfl⟩ := ((Frank.idle settings).run hrun).ends hs hstep hends hf
  obtain ⟨older, hrecord, hprobe⟩ := record_finish hs call hd.result_eq.1 ht
  refine ⟨d, _, older, hrecord, congrArg Option.join (c.value?_finish x s.engine c.cell),
    Engine.known_finish c x s.engine, ?_, ?_⟩
  · obtain ⟨table, -, hfinish⟩ := c.finish_eq x s.engine
    exact get?_after_ends (congrArg Prod.snd hfinish)
  cases d with
  | probe sent limit =>
    obtain ⟨hkind, rfl⟩ := hd
    have hvalue := hprobe sent limit rfl
    refine ⟨hkind, hvalue, fun hlone later u hu hlater => ?_⟩
    have howned := hlone.owned hrun call
    have hattended : s.Attended :=
      Attended.run (s := idle settings) .empty Sound.idle hrun
    have hdropped := Owned.of_undetected hattended hs howned call hvalue
      (howned.step hs (by rintro id command timeout on ⟨⟩) hstep)
    exact (hdropped.run ht hlater hu).afresh (ht.run (fun _ => .start) hall hu)
  | check m password limit => exact hd.1
  | plain command timeout => trivial
  | elevated m password command timeout =>
    -- The command was sent lawfully, and the note before it is on the profile that was left.
    obtain ⟨_, _, hvetted⟩ :=
      Traffic.inv_of_run Vetted.empty (Elevation.fulfils_ascend settings) hrunt c.cell
    obtain ⟨-, hcommand, htimeout, -, hvouched⟩ := hvetted.lawful
      ([.ends (.finished (.error f)), .leaves (s.engine.profiles.value? c.cell).join,
        .hears (.run (.elevated m password command timeout)) (.error f)].map c.note) _ _ hrecord
    exact ⟨hcommand, htimeout, Vouched.trusts hvouched rfl⟩

/-- Two calls on a login, of which the first one is given up while it finds out about the login.
The second one goes on with the cell that is there; meanwhile another login of the host gets a call,
and the profiles of a third host are forgotten. -/
def lostProbe : List Event :=
  [.call 0 ⟨"ann", "a", 22⟩ "id" (.ofSecs 60) none, .answer 0 (.replied (.ok ⟨"ann\n", "", 0⟩)),
    .abandon 0, .call 1 ⟨"ann", "a", 22⟩ "ls" (.ofSecs 60) none,
    .call 2 ⟨"bob", "a", 22⟩ "ls" (.ofSecs 60) none, .answer 1 (.replied (.ok ⟨"ann\n", "", 0⟩)),
    .clear (some "b")]

/-- The second call loses its connection at the next probe, and nothing is left of the login. -/
theorem fault_leaves_all_of_lostProbe :
    ∃ s t c, (idle ⟨.ofSecs 30, .ofSecs 15⟩).run lostProbe = some s ∧
      s.step (.answer 1 (.replied (.error (.connectionLost "a" "reset")))) = some t ∧
      s.Ends (.answer 1 (.replied (.error (.connectionLost "a" "reset")))) c
        (.finished (.error (.connectionLost "a" "reset"))) ∧
      Lone ⟨.ofSecs 30, .ofSecs 15⟩ c lostProbe ∧
      t.Afresh ⟨.ofSecs 30, .ofSecs 15⟩ ⟨"ann", "a", 22⟩ := by
  have hfacts : ((idle ⟨.ofSecs 30, .ofSecs 15⟩).run lostProbe).bind (fun s =>
      (s.calls.get? 1).bind fun c =>
        (s.step (.answer 1 (.replied (.error (.connectionLost "a" "reset"))))).map fun t =>
          (c.caller, c.key, c.command, c.timeout, c.on,
            match (c.resume (.replied (.error (.connectionLost "a" "reset"))) s.engine).2 with
            | .ends r => some r
            | .waits _ => none, (t.record c.cell)[3]?)) =
      some (1, ⟨"ann", "a", 22⟩, "ls", .ofSecs 60, none,
        some (.finished (.error (.connectionLost "a" "reset"))),
        some (.mk 1 ⟨"ann", "a", 22⟩ "ls" (.ofSecs 60)
          (.asks (.run (.probe "groups" (.ofSecs 15)))))) := by rfl
  obtain ⟨s, hrun, hfacts⟩ := Option.bind_eq_some_iff.mp hfacts
  obtain ⟨c, call, hfacts⟩ := Option.bind_eq_some_iff.mp hfacts
  obtain ⟨t, hstep, hfacts⟩ := Option.map_eq_some_iff.mp hfacts
  simp only [Prod.mk.injEq] at hfacts
  obtain ⟨hcaller, hkey, hcommand, htimeout, hon, hended, hasked⟩ := hfacts
  have hends : s.Ends (.answer 1 (.replied (.error (.connectionLost "a" "reset")))) c
      (.finished (.error (.connectionLost "a" "reset"))) := by
    refine .answer call ?_
    split at hended
    · next hr => rw [hr, Option.some.inj hended]
    · cases hended
  have hlone : Lone ⟨.ofSecs 30, .ofSecs 15⟩ c lostProbe := by
    have hbefore : ((idle ⟨.ofSecs 30, .ofSecs 15⟩).run (lostProbe.take 3)).map
        (fun s => s.calls.isEmpty) = some true := by rfl
    obtain ⟨u, hu, hempty⟩ := Option.map_eq_some_iff.mp hbefore
    refine ⟨lostProbe.take 3, lostProbe.drop 4, u, ?_, hu, ?_, ?_⟩
    · rw [hcaller, hkey, hcommand, htimeout, hon]
      rfl
    · rw [List.isEmpty_iff.mp hempty]
      exact List.forall_mem_nil _
    · rw [hkey]
      simp [lostProbe]
  obtain ⟨d, v, older, hrecord, -, -, -, hd⟩ :=
    fault_leaves_all hrun hstep hends (by decide)
  refine ⟨s, t, c, hrun, hstep, hends, hlone, ?_⟩
  rw [hrecord] at hasked
  obtain rfl : d = .probe "groups" (.ofSecs 15) :=
    Query.run.inj (Deed.asks.inj (congrArg Note.deed (Option.some.inj hasked)))
  exact hkey ▸ hd.2.2 hlone [] t rfl (by simp)

end Traffic

end RemoteShell.Elevation
