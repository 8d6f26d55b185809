import RemoteShell.Proofs.Cells.Exclusion
import RemoteShell.Proofs.Elevation.Soundness

/-!
# Orderly traffic

Traffic is orderly if the profile of a login is forgotten only while no call on the login is under
way.  Then all calls on a login have the cell that the table has for it, and the cell stays in the
table as long as it has a profile and the login is not forgotten: a call that ends without a profile
drops the cell only when nobody else uses it.

## Main definitions

* `Event.Forgets`, `Traffic.Orderly`: a login is forgotten, and never under a call
* `Traffic.Happens`: what an event can do
* `Traffic.Guarded`: the table agrees with the calls

## Main results

* `Traffic.happens`: an event does nothing else
* `Guarded.step`, `Guarded.run`: orderly traffic stays guarded
* `Happens.filed`: a login keeps its cell
-/

namespace RemoteShell.Elevation

variable {e : Engine} {c : Climb} {calls : Assoc CallId Climb} {k : Login} {n : CellId}
  {p : Profile}

/-- **An event forgets a login**: its host, or all hosts. -/
def Event.Forgets (k : Login) : Event → Prop
  | .clear host => ∀ h, host = some h → k.host = h
  | _ => False

theorem not_forgets_iff {host : Option String} :
    ¬ (Event.clear host).Forgets k ↔ (host.any fun h => k.host ≠ h) = true := by
  cases host with
  | none => simp [Event.Forgets]
  | some h => simp [Event.Forgets]

/-- The table after a host is forgotten. -/
theorem Engine.filed_clear (e : Engine) (host : Option String) (k : Login) :
    (e.clear host).2.profiles.table.get? k =
      if host.any fun h => k.host ≠ h then e.profiles.table.get? k else none :=
  Assoc.get?_filter (fun k : Login => host.any fun h => k.host ≠ h) e.profiles.table k

namespace Engine

variable {host : Option String}

/-- A login that is forgotten has no cell any more. -/
theorem filed_clear_of_forgets (hk : (Event.clear host).Forgets k) :
    (e.clear host).2.profiles.table.get? k = none := by
  rw [filed_clear, if_neg (mt not_forgets_iff.mpr (not_not_intro hk))]

/-- The others keep theirs. -/
theorem filed_clear_of_kept (hk : ¬ (Event.clear host).Forgets k) :
    (e.clear host).2.profiles.table.get? k = e.profiles.table.get? k := by
  rw [filed_clear, if_pos (not_forgets_iff.mp hk)]

/-- No login gets a cell by it. -/
theorem filed_of_clear (hk : (e.clear host).2.profiles.table.get? k = some n) :
    e.profiles.table.get? k = some n := by
  rw [filed_clear, Option.ite_none_right_eq_some] at hk
  exact hk.2

end Engine

/-! ## What an event can do -/

namespace Traffic

variable {s t : Traffic} {ev : Event} {id : CallId}

/-- **What an event can do.** -/
inductive Happens (s : Traffic) : Event → Traffic → Prop
  | queues {id : CallId} {key : Login} {command : String} {timeout : Duration}
      {on : Option ConnId} (new : s.calls.get? id = none) :
      Happens s (.call id key command timeout on)
        (s.after (.arrive id key command timeout on s.engine) []
          (s.engine.entered id key, .waits (.arrive id key command timeout on s.engine)))
  | enters {id : CallId} {key : Login} {command : String} {timeout : Duration}
      {on : Option ConnId} (new : s.calls.get? id = none)
      (turn : (Climb.arrive id key command timeout on s.engine).admitted
        (s.engine.entered id key) = true) :
      Happens s (.call id key command timeout on)
        (s.after (.arrive id key command timeout on s.engine) []
          ((Climb.arrive id key command timeout on s.engine).begin (s.engine.entered id key)))
  | begins {id : CallId} {c : Climb} (call : s.calls.get? id = some c)
      (turn : c.admitted s.engine = true) (phase : c.phase = .queued) :
      Happens s (.answer id .admitted) (s.after c [] (c.begin s.engine))
  | hears {id : CallId} {a : Answer} {c : Climb} {q : Query} {next : q.Answer → Talk Ending}
      {x : q.Answer} (call : s.calls.get? id = some c) (phase : c.phase = .talking (.ask q next))
      (takes : q.take? a = some x) :
      Happens s (.answer id a) (s.after c [.hears q x] (c.follow (next x) s.engine))
  | abandons {id : CallId} {c : Climb} (call : s.calls.get? id = some c) :
      Happens s (.abandon id)
        { s with engine := c.abandon s.engine, calls := s.calls.erase id }
  | clears (host : Option String) :
      Happens s (.clear host) { s with engine := (s.engine.clear host).2 }

/-- **An event does nothing else.** -/
theorem happens (h : s.step ev = some t) : s.Happens ev t := by
  cases ev with
  | call id key command timeout on =>
    rw [step, Option.ite_none_left_eq_some, Option.some.injEq] at h
    obtain ⟨hnew, rfl⟩ := h
    have hnew : s.calls.get? id = none := by simpa [Assoc.has] using hnew
    rw [Climb.start_eq]
    split
    · next hturn => exact .enters hnew hturn
    · exact .queues hnew
  | answer id a =>
    obtain ⟨c, hc, h⟩ := Option.bind_eq_some_iff.mp h
    rw [Option.ite_none_right_eq_some, Option.some.injEq] at h
    obtain ⟨hmay, rfl⟩ := h
    obtain ⟨caller, key, command, timeout, on, cell, phase⟩ := c
    cases phase with
    | queued =>
      cases a with
      | admitted => exact .begins hc hmay rfl
      | _ => exact absurd hmay Bool.false_ne_true
    | talking talk =>
      cases talk with
      | done y => exact absurd hmay Bool.false_ne_true
      | ask q next =>
        obtain ⟨x, hx⟩ := Option.isSome_iff_exists.mp hmay
        have htold : Climb.told ⟨caller, key, command, timeout, on, cell, .talking (.ask q next)⟩ a
            = [.hears q x] := by
          simp only [Climb.told, hx]
          rfl
        have hresume : Climb.resume ⟨caller, key, command, timeout, on, cell,
              .talking (.ask q next)⟩ a s.engine =
            Climb.follow ⟨caller, key, command, timeout, on, cell, .talking (.ask q next)⟩
              (next x) s.engine := by
          simp only [Climb.resume, hx]
        rw [htold, hresume]
        exact .hears hc rfl hx
  | abandon id =>
    obtain ⟨c, hc, rfl⟩ := Option.map_eq_some_iff.mp h
    exact .abandons hc
  | clear host =>
    obtain rfl := Option.some.inj h
    exact .clears host

theorem calls_after (s : Traffic) (c : Climb) (told : List Deed)
    (x : Engine × Progress Climb Climb.Result) :
    (s.after c told x).calls = joined (s.calls.erase c.caller) c x.2 := by
  obtain ⟨e, d | r⟩ := x <;> rfl

/-- **Orderly traffic**: a login is forgotten only while no call on it is under way. -/
def Orderly (s : Traffic) : List Event → Prop
  | [] => True
  | ev :: es => (∀ p ∈ s.calls, ¬ ev.Forgets p.2.key) ∧ ∀ t, s.step ev = some t → t.Orderly es

theorem orderly_append {es fs : List Event} (h : s.Orderly (es ++ fs)) :
    s.Orderly es ∧ ∀ t, s.run es = some t → t.Orderly fs := by
  induction es generalizing s with
  | nil =>
    refine ⟨trivial, fun t ht => ?_⟩
    obtain rfl := Option.some.inj ht
    exact h
  | cons ev es ih =>
    refine ⟨⟨h.1, fun u hu => (ih (h.2 u hu)).1⟩, fun t ht => ?_⟩
    obtain ⟨u, hu, ht⟩ := Option.bind_eq_some_iff.mp ht
    exact (ih (h.2 u hu)).2 t ht

end Traffic

/-! ## Calls and their cells -/

/-- The calls as users of their cells. -/
def users (calls : Assoc CallId Climb) : List (Cells.User Login) :=
  calls.map fun p => ⟨p.2.key, p.1, p.2.cell, false⟩

theorem users_append_singleton (calls : Assoc CallId Climb) (c : Climb) :
    users (calls ++ [(c.caller, c)]) = users calls ++ [⟨c.key, c.caller, c.cell, false⟩] :=
  List.map_append

/-- A call that goes on stays the same user, or gives its cell back. -/
theorem guarded_follow (h : Cells.Guarded e.profiles (users (calls ++ [(c.caller, c)])))
    (t : Talk Ending) :
    Cells.Guarded (c.follow t e).1.profiles (users (joined calls c (c.follow t e).2)) := by
  induction t generalizing e with
  | done y =>
    rw [users_append_singleton] at h
    have hreleased : Cells.Guarded (c.release e).profiles (users calls) := h.release
    cases y with
    | finished r => exact hreleased
    | crashed => exact hreleased
    | undetected f => exact hreleased.retire _ _
  | ask q next ih =>
    rcases q.outward_or_keep with hq | ⟨p, rfl⟩
    · rw [users_append_singleton] at h
      rw [c.follow_ask hq]
      exact (users_append_singleton calls { c with phase := .talking (.ask q next) }).symm ▸ h
    · refine ih () (h.of_modify (fun _ hx => hx) (fun _ _ => rfl) h.filed ?_ h.callers)
      exact fun v hv inside => Cells.admits_modify (fun _ hx => hx) (h.held v hv inside)

/-- A cell with a profile stays in the table when a call goes on. -/
theorem filed_follow (hk : e.profiles.table.get? k = some n) (t : Talk Ending)
    (hp : ((c.follow t e).1.profiles.value? n).join = some p) :
    (c.follow t e).1.profiles.table.get? k = some n := by
  induction t generalizing e with
  | done y =>
    cases y with
    | finished r => exact hk
    | crashed => exact hk
    | undetected f =>
      change (Cells.retire ..).table.get? k = some n
      change ((Cells.retire ..).value? n).join = some p at hp
      unfold Cells.retire at hp ⊢
      split at hp
      · next hdrop =>
        -- What is dropped has no profile.
        obtain ⟨x, hx, hgo⟩ := (Option.any_eq_true _ _).mp hdrop
        have hne : k ≠ c.key := by
          rintro rfl
          have hcell : (c.release e).profiles.cell? n = some x := by
            obtain ⟨m, hm, hx⟩ := Option.bind_eq_some_iff.mp hx
            obtain rfl : n = m := Option.some.inj (hk.symm.trans hm)
            exact hx
          have hvalue : x.value = some p := by
            simpa [Cells.value?, Cells.cell?] using
              (congrArg (fun y => (y.map Cell.value).join) hcell).symm.trans hp
          simp [hvalue] at hgo
        rw [if_pos hdrop]
        exact (Assoc.get?_erase_of_ne _ hne).trans hk
      · next hstay =>
        rw [if_neg hstay]
        exact hk
  | ask q next ih =>
    rcases q.outward_or_keep with hq | ⟨p, rfl⟩
    · rw [c.follow_ask hq]
      exact hk
    · exact ih () hk hp

namespace Traffic

variable {s t : Traffic} {ev : Event} {id : CallId}

/-- **The table agrees with the calls.** -/
def Guarded (s : Traffic) : Prop := Cells.Guarded s.engine.profiles (users s.calls)

namespace Guarded

protected theorem idle (settings : ElevationSettings) : (idle settings).Guarded := .empty

theorem keyed (h : s.Guarded) : s.calls.Keyed := by
  have := h.callers
  rwa [users, List.map_map] at this

/-- All calls on a login have the cell that the table has for it. -/
theorem filed (h : s.Guarded) (hc : s.calls.get? id = some c) :
    s.engine.profiles.table.get? c.key = some c.cell :=
  Cells.Guarded.filed h _ (List.mem_map.mpr ⟨(id, c), Assoc.mem_of_get? hc, rfl⟩)

/-- A call is taken from among the others. -/
theorem split (h : s.Guarded) (hc : s.calls.get? id = some c) (hid : c.caller = id) :
    Cells.Guarded s.engine.profiles (users (s.calls.erase id ++ [(c.caller, c)])) := by
  refine Cells.Guarded.perm h ((List.Perm.map _ ?_))
  rw [hid]
  exact (h.keyed.perm_cons_erase hc).trans (List.perm_append_singleton _ _).symm

/-- A call has come. -/
theorem entered (h : s.Guarded) (hnew : s.calls.get? id = none) (key : Login) (command : String)
    (timeout : Duration) (on : Option ConnId) :
    Cells.Guarded (s.engine.entered id key).profiles
      (users (s.calls.erase id ++ [(id, .arrive id key command timeout on s.engine)])) := by
  rw [Assoc.erase_of_get?_eq_none hnew]
  have hid : ∀ u ∈ users s.calls, u.caller ≠ id := by
    intro u hu
    obtain ⟨p, hp, rfl⟩ := List.mem_map.mp hu
    intro hp'
    have hget : s.calls.get? id = some p.2 :=
      h.keyed.get?_eq_some_iff.mpr (by rw [← hp']; exact hp)
    rw [hnew] at hget
    cases hget
  have := Cells.Guarded.enter_openCell h key none hid
  rwa [users, List.map_append]

theorem after {told : List Deed} {x : Engine × Progress Climb Climb.Result}
    (h : Cells.Guarded x.1.profiles (users (joined (s.calls.erase c.caller) c x.2))) :
    (s.after c told x).Guarded := by
  rw [Guarded, calls_after]
  exact h

/-- Logins without calls may be forgotten. -/
theorem clear {host : Option String} (h : s.Guarded)
    (hno : ∀ p ∈ s.calls, ¬ (Event.clear host).Forgets p.2.key) :
    Cells.Guarded (s.engine.clear host).2.profiles (users s.calls) where
  counted k n hk := h.counted k n (Engine.filed_of_clear hk)
  filed u hu := by
    obtain ⟨p, hp, rfl⟩ := List.mem_map.mp hu
    exact (Engine.filed_clear_of_kept (hno p hp)).trans (Cells.Guarded.filed h _ hu)
  held := h.held
  callers := h.callers

/-- **An event keeps traffic guarded**, unless it forgets the login of a call. -/
theorem step (h : s.Guarded) (hcallers : ∀ id c, s.calls.get? id = some c → c.caller = id)
    (hno : ∀ p ∈ s.calls, ¬ ev.Forgets p.2.key) (hstep : s.step ev = some t) : t.Guarded := by
  cases happens hstep with
  | queues new => exact after (h.entered new ..)
  | enters new turn => exact after (guarded_follow (h.entered new ..) _)
  | begins call turn =>
    obtain rfl := hcallers _ _ call
    exact after (guarded_follow (h.split call rfl) _)
  | hears call phase takes =>
    obtain rfl := hcallers _ _ call
    exact after (guarded_follow (h.split call rfl) _)
  | abandons call =>
    obtain rfl := hcallers _ _ call
    have hsplit := h.split call rfl
    rw [users_append_singleton] at hsplit
    exact hsplit.release
  | clears host => exact h.clear hno

end Guarded

/-- A call of sound traffic knows its number. -/
theorem Sound.caller_eq {inv : Login → Option Profile → List Note → Prop}
    {settings : ElevationSettings} (h : s.Sound inv settings) (hc : s.calls.get? id = some c) :
    c.caller = id := by
  obtain ⟨owner, h⟩ := h
  exact h.callers _ (Assoc.mem_of_get? hc)

/-- **Orderly traffic stays guarded.** -/
theorem Guarded.run {inv : Login → Option Profile → List Note → Prop}
    {settings : ElevationSettings} (h : s.Guarded) (hs : s.Sound inv settings)
    (hinit : ∀ k, inv k none []) (hall : AllFulfil inv settings) {es : List Event}
    (ho : s.Orderly es) (hrun : s.run es = some t) : t.Guarded := by
  induction es generalizing s with
  | nil =>
    obtain rfl := Option.some.inj hrun
    exact h
  | cons ev es ih =>
    obtain ⟨u, hu, hrun⟩ := Option.bind_eq_some_iff.mp hrun
    exact ih (h.step (fun _ _ hc => hs.caller_eq hc) ho.1 hu) (hs.step hinit hall hu) (ho.2 u hu)
      hrun

/-- **A login keeps its cell**, unless it is forgotten, as long as the cell has a profile. -/
theorem Happens.filed (h : s.Happens ev t) (hkept : ¬ ev.Forgets k)
    (hk : s.engine.profiles.table.get? k = some n)
    (hp : (t.engine.profiles.value? n).join = some p) :
    t.engine.profiles.table.get? k = some n := by
  have hentered (id : CallId) (key : Login) :
      (s.engine.entered id key).profiles.table.get? k = some n := by
    change (Cells.withCell ..).2.table.get? k = some n
    unfold Cells.withCell
    split
    · exact hk
    · next hnone =>
      refine (Assoc.get?_put_of_ne _ _ ?_).trans hk
      rintro rfl
      rw [hk] at hnone
      cases hnone
  cases h with
  | queues new => exact hentered ..
  | enters new turn => exact filed_follow (hentered ..) _ hp
  | begins call turn => exact filed_follow hk _ hp
  | hears call phase takes => exact filed_follow hk _ hp
  | abandons call => exact hk
  | clears host => exact (Engine.filed_clear_of_kept hkept).trans hk

end Traffic

end RemoteShell.Elevation
