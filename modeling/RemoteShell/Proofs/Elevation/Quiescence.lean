import RemoteShell.Proofs.Elevation.Aftermath

/-!
# Engines at rest

A login gets a cell when a call on it comes, before there is a profile.  Unless calls are given up,
the cell of a login without a profile is always that of a call under way: a call keeps the profile
that it detects before it does anything else, and if the detection fails it takes the cell out of
the table, or leaves it to the calls that still wait for it.  So when all calls have ended, the
cells in the table are those of the logins with a profile, and forgetting logins counts the
profiles.

## Main definitions

* `Talk.Learns`: a dialogue keeps a profile, or ends with the fault of a detection
* `Traffic.Tended`: cells without a profile are those of calls under way

## Main results

* `Traffic.Tended.run`: traffic without calls that are given up stays tended
* `Traffic.Tended.count_clear`: what is forgotten when no call is under way is counted
-/

namespace RemoteShell.Elevation

variable {settings : ElevationSettings} {c : Climb} {e : Engine} {calls : Assoc CallId Climb}
  {k : Login} {n : CellId}

/-! ## Dialogues that learn -/

/-- **A dialogue learns**: it keeps a profile sooner or later, unless it ends with the fault of a
detection. -/
def Talk.Learns : Talk Ending → Prop
  | .done x => ∃ f, x = .undetected f
  | .ask (.keep _) _ => True
  | .ask q next => ∀ a : q.Answer, Learns (next a)

theorem Talk.learns_ask {q : Query} (hq : q.Outward) {next : q.Answer → Talk Ending} :
    Talk.Learns (.ask q next) ↔ ∀ a, Talk.Learns (next a) := by
  cases q with
  | keep p => exact hq.elim
  | run d => exact Iff.rfl
  | prompt message => exact Iff.rfl
  | fetch name => exact Iff.rfl
  | store name secret => exact Iff.rfl
  | erase name => exact Iff.rfl

/-- A call on a login without a profile learns one. -/
theorem learns_ascend (settings : ElevationSettings) (key : Login) (command : String)
    (timeout : Duration) : (ascend settings key command timeout none).Learns := by
  unfold ascend
  dsimp only
  generalize detect key.user settings.detectTimeout = t
  induction t with
  | done r =>
    cases r with
    | error f => exact ⟨f, rfl⟩
    | ok p => trivial
  | ask q next ih =>
    rw [Dialogue.ask_bind]
    rcases q.outward_or_keep with hq | ⟨p, rfl⟩
    · exact (Talk.learns_ask hq).mpr ih
    · trivial

/-! ## Cells with a profile -/

/-- A cell has a profile. -/
def Engine.Stocked (e : Engine) (n : CellId) : Prop := (e.profiles.value? n).join ≠ none

theorem Engine.stocked_congr {e e' : Engine} (h : e'.profiles.value? n = e.profiles.value? n) :
    e'.Stocked n ↔ e.Stocked n := by
  rw [Stocked, Stocked, h]

theorem Engine.Stocked.keep {m : CellId} (h : e.Stocked n) (p : Profile) :
    Stocked { e with profiles := e.profiles.setValue m (some p) } n := by
  rw [Stocked, Cells.value?, Cells.setValue, Cells.cell?_modify] at *
  split
  · cases hcell : e.profiles.cell? n with
    | none =>
      rw [hcell] at h
      exact absurd rfl h
    | some y => exact Option.some_ne_none p
  · exact h

/-- A cell that a profile is kept in has one. -/
theorem Engine.stocked_keep {y : Cell (Option Profile)} (hy : e.profiles.cell? n = some y)
    (p : Profile) : Stocked { e with profiles := e.profiles.setValue n (some p) } n := by
  rw [Stocked, Cells.value?, Cells.setValue, Cells.cell?_modify, if_pos rfl, hy]
  exact Option.some_ne_none p

/-- **A profile is not lost** when a call goes on. -/
theorem Climb.stocked_follow (t : Talk Ending) (h : e.Stocked n) : (c.follow t e).1.Stocked n := by
  induction t generalizing e with
  | done x => exact (Engine.stocked_congr (c.value?_finish x e n)).mpr h
  | ask q next ih =>
    rcases q.outward_or_keep with hq | ⟨p, rfl⟩
    · rw [c.follow_ask hq]
      exact h
    · exact ih () (h.keep p)

/-! ## A call goes on -/

/-- Every cell in the table has a profile, or is that of a call. -/
def Engine.Tended (e : Engine) (calls : Assoc CallId Climb) : Prop :=
  ∀ k n, e.profiles.table.get? k = some n → e.Stocked n ∨ ∃ p ∈ calls, p.2.cell = n

/-- A call that talks has a profile, or learns one. -/
def Climb.Learned (e : Engine) (c : Climb) : Prop :=
  ∀ t, c.phase = .talking t → e.Stocked c.cell ∨ t.Learns

/-- A detection that has failed takes the cell out of the table, if the cell has no profile and no
other call has it. -/
theorem Climb.get?_finish_undetected {f : Fault}
    (hattended : Cells.Attended e.profiles (users (calls ++ [(c.caller, c)])))
    (hfiled : e.profiles.table.get? c.key = some c.cell)
    (hmade : ∃ y, e.profiles.cell? c.cell = some y) (hbare : ¬ e.Stocked c.cell)
    (hnobody : ∀ p ∈ calls, p.2.cell ≠ c.cell) :
    (c.finish (.undetected f) e).1.profiles.table.get? c.key = none := by
  have hreleased : Cells.Attended (c.release e).profiles (users calls) := by
    rw [users_append_singleton] at hattended
    exact hattended.release
  refine Climb.get?_dropUndetected hreleased fun m hm => ?_
  obtain rfl : c.cell = m := Option.some.inj (hfiled.symm.trans hm)
  refine ⟨fun u hu => ?_, ?_⟩
  · obtain ⟨p, hp, rfl⟩ := List.mem_map.mp hu
    exact hnobody p hp
  · obtain ⟨y, hy⟩ := hmade
    obtain ⟨z, hz, hvalue⟩ := c.cell?_release e hy
    rw [Engine.Stocked, Cells.value?, hy] at hbare
    exact ⟨z, hz, hvalue.trans (not_not.mp hbare)⟩

/-- **A call that ends** leaves the cells tended: its cell has a profile, or is out of the table
unless others have it. -/
theorem Climb.tended_finish {x : Ending}
    (hattended : Cells.Attended e.profiles (users (calls ++ [(c.caller, c)])))
    (howner : ∀ k, e.profiles.table.get? k = some c.cell → k = c.key)
    (hmade : ∃ y, e.profiles.cell? c.cell = some y)
    (h : e.Tended (calls ++ [(c.caller, c)]))
    (hx : e.Stocked c.cell ∨ Talk.Learns (.done x)) : (c.finish x e).1.Tended calls := by
  intro k n hk
  have hbefore := Climb.filed_of_follow (.done x) hk
  rw [Engine.stocked_congr (c.value?_finish x e n)]
  rcases h k n hbefore with hprofile | ⟨p, hp, hcell⟩
  · exact .inl hprofile
  rcases List.mem_append.mp hp with hp | hp
  · exact .inr ⟨p, hp, hcell⟩
  obtain rfl := List.mem_singleton.mp hp
  obtain rfl : c.cell = n := hcell
  rcases hx with hprofile | ⟨f, rfl⟩
  · exact .inl hprofile
  by_contra hneither
  obtain ⟨hbare, hnobody⟩ := not_or.mp hneither
  obtain rfl := howner k hbefore
  have hgone := c.get?_finish_undetected (f := f) hattended hbefore hmade hbare
    fun p hp hcell => hnobody ⟨p, hp, hcell⟩
  cases hgone.symm.trans hk

/-- **A call that goes on** leaves the cells tended: it has kept a profile when it ends, or takes
its cell out of the table unless others have it. -/
theorem Climb.tended_follow
    (hattended : Cells.Attended e.profiles (users (calls ++ [(c.caller, c)])))
    (howner : ∀ k, e.profiles.table.get? k = some c.cell → k = c.key)
    (hmade : ∃ y, e.profiles.cell? c.cell = some y)
    (h : e.Tended (calls ++ [(c.caller, c)])) (t : Talk Ending)
    (ht : e.Stocked c.cell ∨ t.Learns) :
    (c.follow t e).1.Tended (joined calls c (c.follow t e).2) ∧
      ∀ d, (c.follow t e).2 = .waits d → d.Learned (c.follow t e).1 := by
  induction t generalizing e with
  | done x =>
    have hends : joined calls c (c.finish x e).2 = calls := by cases x <;> rfl
    rw [follow, hends]
    exact ⟨Climb.tended_finish hattended howner hmade h ht, fun d hd => by cases x <;> cases hd⟩
  | ask q next ih =>
    rcases q.outward_or_keep with hq | ⟨p, rfl⟩
    · rw [c.follow_ask hq]
      refine ⟨fun k n hk => ?_, fun d hd t ht' => ?_⟩
      · rcases h k n hk with hprofile | ⟨p, hp, hcell⟩
        · exact .inl hprofile
        · rcases List.mem_append.mp hp with hp | hp
          · exact .inr ⟨p, List.mem_append_left _ hp, hcell⟩
          · obtain rfl := List.mem_singleton.mp hp
            exact .inr ⟨_, List.mem_append_right _ (List.mem_singleton_self _), hcell⟩
      · obtain rfl := Progress.waits.inj hd
        obtain rfl := Climb.Phase.talking.inj ht'
        exact ht
    · obtain ⟨y, hy⟩ := hmade
      refine ih () (e := { e with profiles := e.profiles.setValue c.cell (some p) })
        (hattended.setValue c.cell (some p)) howner ?_ (fun k n hk => ?_)
        (.inl (Engine.stocked_keep hy p))
      · refine ⟨{ y with value := some p }, ?_⟩
        rw [Cells.setValue, Cells.cell?_modify, if_pos rfl, hy]
        rfl
      · exact (h k n hk).imp_left fun hprofile => hprofile.keep p

/-- Every login has one cell at most, also when a call has gone on. -/
theorem Climb.keyed_follow (t : Talk Ending) (h : e.profiles.table.Keyed) :
    (c.follow t e).1.profiles.table.Keyed := by
  induction t generalizing e with
  | done x =>
    cases x with
    | finished r => exact h
    | crashed => exact h
    | undetected f =>
      change (Cells.retire ..).table.Keyed
      unfold Cells.retire
      split
      · exact h.erase c.key
      · exact h
  | ask q next ih =>
    rcases q.outward_or_keep with hq | ⟨p, rfl⟩
    · rw [c.follow_ask hq]
      exact h
    · exact ih () (e := { e with profiles := e.profiles.setValue c.cell (some p) }) h

/-! ## A call comes -/

theorem Engine.keyed_entered (h : e.profiles.table.Keyed) (id : CallId) (key : Login) :
    (e.entered id key).profiles.table.Keyed := by
  change (Cells.withCell ..).2.table.Keyed
  unfold Cells.withCell
  split
  · exact h
  · exact h.put _ _

/-- A call that comes changes no profile. -/
theorem Engine.value?_entered (hn : n < e.profiles.next) (id : CallId) (key : Login) :
    (e.entered id key).profiles.value? n = e.profiles.value? n := by
  -- A new cell is none of those there, and the lock and the handle of the call change no value.
  have hcell : (e.profiles.withCell key none).2.value? n = e.profiles.value? n := by
    unfold Cells.withCell
    split
    · rfl
    · exact congrArg (Option.map Cell.value) (Assoc.get?_put_of_ne _ _ (Nat.ne_of_lt hn))
  rw [← hcell]
  exact (value?_modify (fun y => Cell.value_enter y id) _ n).trans
    (value?_modify (f := fun y => { y with handles := y.handles + 1 }) (fun _ => rfl) _ n)

/-! ## Logins are forgotten -/

/-- What is known of a login after some have been forgotten. -/
theorem Engine.known_clear (e : Engine) (host : Option String) (k : Login) :
    ((Event.clear host).Forgets k → (e.clear host).2.known k = none) ∧
      (¬ (Event.clear host).Forgets k → (e.clear host).2.known k = e.known k) := by
  refine ⟨fun hforgets => ?_, fun hkept => ?_⟩
  · rw [known, filed_clear_of_forgets hforgets]
    rfl
  · exact known_congr (filed_clear_of_kept hkept) fun _ _ => rfl

namespace Traffic

variable {s t : Traffic} {ev : Event} {es : List Event} {told : List Deed}

/-- **Traffic is tended** if every cell in the table has a profile or a call, and every call that
talks has a profile or learns one. -/
structure Tended (s : Traffic) : Prop where
  keyed : s.engine.profiles.table.Keyed
  cells : s.engine.Tended s.calls
  learned : ∀ p ∈ s.calls, p.2.Learned s.engine

namespace Tended

protected theorem idle (settings : ElevationSettings) : (idle settings).Tended :=
  ⟨.nil, nofun, List.forall_mem_nil _⟩

theorem after {z : Engine × Progress Climb Climb.Result} (hkeyed : z.1.profiles.table.Keyed)
    (hcells : z.1.Tended (joined (s.calls.erase c.caller) c z.2))
    (hothers : ∀ p ∈ s.calls.erase c.caller, p.2.Learned z.1)
    (hwaits : ∀ d, z.2 = .waits d → d.Learned z.1) : (s.after c told z).Tended := by
  refine ⟨hkeyed, by rw [calls_after]; exact hcells, fun p hp => ?_⟩
  rw [calls_after] at hp
  obtain ⟨e, d | r⟩ := z
  · rcases List.mem_append.mp hp with hp | hp
    · exact hothers p hp
    · obtain rfl := List.mem_singleton.mp hp
      exact hwaits d rfl
  · exact hothers p hp

/-- A call goes on from a tended engine. -/
theorem follow (hkeyed : e.profiles.table.Keyed)
    (hattended : Cells.Attended e.profiles (users (s.calls.erase c.caller ++ [(c.caller, c)])))
    (howner : ∀ k, e.profiles.table.get? k = some c.cell → k = c.key)
    (hmade : ∃ y, e.profiles.cell? c.cell = some y)
    (hcells : e.Tended (s.calls.erase c.caller ++ [(c.caller, c)]))
    (hothers : ∀ p ∈ s.calls.erase c.caller, p.2.Learned e) (talk : Talk Ending)
    (htalk : e.Stocked c.cell ∨ talk.Learns) : (s.after c told (c.follow talk e)).Tended := by
  obtain ⟨htended, hwaits⟩ := c.tended_follow hattended howner hmade hcells talk htalk
  exact after (c.keyed_follow talk hkeyed) htended
    (fun p hp t ht => (hothers p hp t ht).imp_left (Climb.stocked_follow talk)) hwaits

/-- A call begins with the profile of its cell, or learns one. -/
theorem begins_learned (e : Engine) (c : Climb) :
    e.Stocked c.cell ∨
      (ascend e.settings c.key c.command c.timeout (e.profiles.value? c.cell).join).Learns := by
  by_cases hprofile : (e.profiles.value? c.cell).join = none
  · rw [hprofile]
    exact .inr (learns_ascend e.settings c.key c.command c.timeout)
  · exact .inl hprofile

/-- A call that is under way goes on. -/
theorem goes (h : s.Tended) (hattended : s.Attended) (hs : s.Sound Moves settings)
    (call : s.calls.get? c.caller = some c) (talk : Talk Ending)
    (htalk : s.engine.Stocked c.cell ∨ talk.Learns) :
    (s.after c told (c.follow talk s.engine)).Tended := by
  obtain ⟨owner, hs⟩ := hs
  obtain ⟨hmade, howner⟩ := hs.housed _ (Assoc.mem_of_get? call)
  refine follow h.keyed (hattended.split call) (fun k hk => ?_) (hs.made _ hmade) (fun k n hk => ?_)
    (fun p hp => h.learned p (List.mem_filter.mp hp).1) talk htalk
  · exact (hs.filed _ (Assoc.mem_of_get? hk)).2.symm.trans howner
  · refine (h.cells k n hk).imp_right fun ⟨p, hp, hcell⟩ => ⟨p, ?_, hcell⟩
    exact ((hattended.keyed.perm_cons_erase call).trans
      (List.perm_append_singleton _ _).symm).mem_iff.mp hp

/-- A call has come. -/
theorem entered (h : s.Tended) (hs : s.Sound Moves settings) {id : CallId}
    (hnew : s.calls.get? id = none) (key : Login) (command : String) (timeout : Duration)
    (on : Option ConnId) :
    (s.engine.entered id key).Tended
        (s.calls.erase id ++ [(id, .arrive id key command timeout on s.engine)]) ∧
      ∀ p ∈ s.calls.erase id, p.2.Learned (s.engine.entered id key) := by
  obtain ⟨owner, hs⟩ := hs
  rw [Assoc.erase_of_get?_eq_none hnew]
  refine ⟨fun k n hk => ?_, fun p hp t ht => ?_⟩
  · by_cases hkey : k = key
    · subst hkey
      rw [Engine.get?_entered_self, Option.some.injEq] at hk
      exact .inr ⟨_, List.mem_append_right _ (List.mem_singleton_self _), hk⟩
    · rw [Engine.get?_entered_of_ne hkey] at hk
      have hn := (hs.filed _ (Assoc.mem_of_get? hk)).1
      rw [Engine.stocked_congr (Engine.value?_entered hn id key)]
      exact (h.cells k n hk).imp_right fun ⟨p, hp, hcell⟩ =>
        ⟨p, List.mem_append_left _ hp, hcell⟩
  · rw [Engine.stocked_congr (Engine.value?_entered (hs.housed p hp).1 id key)]
    exact h.learned p hp t ht

/-- **An event keeps traffic tended**, unless a call is given up. -/
theorem step (h : s.Tended) (hattended : s.Attended) (hs : s.Sound Moves settings)
    (hev : ∀ id, ev ≠ .abandon id) (hstep : s.step ev = some t) : t.Tended := by
  cases happens hstep with
  | @queues id key command timeout on new =>
    obtain ⟨hcells, hothers⟩ := h.entered hs new key command timeout on
    refine after (Engine.keyed_entered h.keyed id key) hcells hothers fun d hd t ht => ?_
    obtain rfl := Progress.waits.inj hd
    cases ht
  | @enters id key command timeout on new turn =>
    obtain ⟨hcells, hothers⟩ := h.entered hs new key command timeout on
    obtain ⟨owner, hsound⟩ := hs
    obtain ⟨owner', hentered, hlt, howner⟩ := hsound.entered (fun _ => .start) id key
    refine follow (Engine.keyed_entered h.keyed id key)
      (hattended.entered ⟨owner, hsound⟩ new key command timeout on) (fun k hk => ?_)
      (hentered.made _ hlt) hcells hothers _ (begins_learned _ _)
    exact (hentered.filed _ (Assoc.mem_of_get? hk)).2.symm.trans howner
  | begins call turn =>
    obtain rfl := hs.caller_eq call
    exact h.goes hattended hs call _ (begins_learned _ _)
  | @hears id a c q next x call phase takes =>
    obtain rfl := hs.caller_eq call
    refine h.goes hattended hs call _ ?_
    have hq : q.Outward := by
      obtain ⟨owner, hs⟩ := hs
      have hfits := hs.fits _ (Assoc.mem_of_get? call)
      unfold Climb.Fits at hfits
      rw [phase] at hfits
      exact hfits.1
    exact (h.learned _ (Assoc.mem_of_get? call) _ phase).imp_right fun hlearns =>
      (Talk.learns_ask hq).mp hlearns x
  | abandons call => exact absurd rfl (hev _)
  | clears host =>
    exact ⟨(List.filter_sublist.map _).nodup h.keyed,
      fun k n hk => h.cells k n (Engine.filed_of_clear hk), h.learned⟩

/-- **Traffic stays tended** as long as no call is given up. -/
protected theorem run (h : s.Tended) (hattended : s.Attended) (hs : s.Sound Moves settings)
    (hes : ∀ id, .abandon id ∉ es) (hrun : s.run es = some t) : t.Tended := by
  induction es generalizing s with
  | nil =>
    obtain rfl := Option.some.inj hrun
    exact h
  | cons ev es ih =>
    obtain ⟨u, hu, hrun⟩ := Option.bind_eq_some_iff.mp hrun
    refine ih (h.step hattended hs (fun id hev => ?_) hu) (hattended.step hs hu)
      (hs.step (fun _ => .start) (Moves.fulfils_ascend settings) hu)
      (fun id hmem => hes id (List.mem_cons_of_mem _ hmem)) hrun
    exact hes id (hev ▸ List.mem_cons_self)

/-- **At rest a cell has a profile**: the cells in the table are those of the logins of which
something is known. -/
theorem known_iff_of_rest (h : s.Tended) (hrest : s.calls = []) :
    s.engine.known k ≠ none ↔ ∃ n, (k, n) ∈ s.engine.profiles.table := by
  constructor
  · intro hknown
    cases hk : s.engine.profiles.table.get? k with
    | none => exact absurd (by rw [Engine.known, hk]; rfl) hknown
    | some n => exact ⟨n, Assoc.mem_of_get? hk⟩
  · rintro ⟨n, hn⟩
    have hk := h.keyed.get?_eq_some_iff.mpr hn
    rw [Engine.known_of_filed hk]
    rcases h.cells k n hk with hprofile | ⟨p, hp, -⟩
    · exact hprofile
    · rw [hrest] at hp
      cases hp

end Tended

/-! ## Forgetting at rest -/

/-- **What is forgotten is counted**: when no call is under way, the number is that of the logins
of which something was known. -/
theorem Tended.count_clear (h : s.Tended) (hrest : s.calls = []) (host : Option String) :
    ∃ ks : List Login, ks.Nodup ∧ (s.engine.clear host).1 = ks.length ∧
      ∀ k, k ∈ ks ↔ (Event.clear host).Forgets k ∧ s.engine.known k ≠ none := by
  have hsplit := List.length_eq_length_filter_add (l := s.engine.profiles.table)
    fun p => host.any fun h => p.1.host ≠ h
  refine ⟨(s.engine.profiles.table.filter fun p => !host.any fun h => p.1.host ≠ h).map Prod.fst,
    (List.filter_sublist.map _).nodup h.keyed, ?_, fun k => ?_⟩
  · rw [List.length_map, Engine.clear]
    omega
  · rw [h.known_iff_of_rest hrest, List.mem_map]
    constructor
    · rintro ⟨⟨k, n⟩, hmem, rfl⟩
      obtain ⟨hmem, hforgets⟩ := List.mem_filter.mp hmem
      exact ⟨of_not_not (mt not_forgets_iff.mp (by simpa using hforgets)), n, hmem⟩
    · rintro ⟨hforgets, n, hmem⟩
      refine ⟨(k, n), List.mem_filter.mpr ⟨hmem, ?_⟩, rfl⟩
      simpa using mt not_forgets_iff.mpr (not_not_intro hforgets)

end Traffic

end RemoteShell.Elevation
