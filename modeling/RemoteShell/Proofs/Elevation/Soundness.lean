import RemoteShell.Proofs.Elevation.Consistency

/-!
# Histories under any traffic

A contract of `ascend` says what one call does to a profile that it has for itself.  Traffic lets
many calls go on at once.  This module shows that the contract holds all the same: an invariant of a
profile and its history that every call keeps holds of every profile at every moment, whatever
happens and in whatever order.

A call that has passed the lock of a cell holds it as long as it talks, so the other calls on the
cell all queue, and touch neither the profile nor the notes: the call has both for itself until it
waits again.

## Main definitions

* `InHand`: a call is about to go on
* `Traffic.Sound`: the engine fits its calls and notes

## Main results

* `InHand.follow`: a call goes on, and all stays consistent
* `Traffic.Sound.step`, `Traffic.Sound.run`: traffic stays sound
* `Traffic.inv_of_run`: the invariant holds of every history
-/

namespace RemoteShell.Elevation

variable {inv : Login → Option Profile → List Note → Prop} {settings : ElevationSettings}
  {owner : CellId → Login} {e : Engine} {calls : Assoc CallId Climb}
  {journal : List (CellId × Note)} {c : Climb}

/-! ## A call goes on -/

/-- **A call in hand**: it is taken from among the calls, holds the lock of its cell, and is about
to go on. -/
structure InHand (inv : Login → Option Profile → List Note → Prop)
    (settings : ElevationSettings) (owner : CellId → Login) (e : Engine)
    (calls : Assoc CallId Climb) (journal : List (CellId × Note)) (c : Climb)
    (x : Cell (Option Profile)) : Prop where
  rest : Consistent inv settings owner (some c.cell) e calls journal
  taken : ∀ p ∈ calls, p.1 ≠ c.caller
  housed : c.cell < e.profiles.next ∧ owner c.cell = c.key
  cell : e.profiles.cell? c.cell = some x
  holds : x.holder = some c.caller

namespace InHand

variable {x : Cell (Option Profile)}

/-- The other calls on the cell queue. -/
theorem queued (h : InHand inv settings owner e calls journal c x) {p : CallId × Climb}
    (hp : p ∈ calls) (hcell : p.2.cell = c.cell) : p.2.phase = .queued := by
  have hfits := h.rest.fits p hp
  unfold Climb.Fits at hfits
  cases hphase : p.2.phase with
  | queued => rfl
  | talking t =>
    rw [hphase] at hfits
    cases t with
    | done y => exact hfits.elim
    | ask q next =>
      obtain ⟨-, y, hy, hholder, -⟩ := hfits
      rw [hcell, h.cell, Option.some.injEq] at hy
      rw [← hy, h.holds, Option.some.injEq, h.rest.callers p hp] at hholder
      exact absurd hholder.symm (h.taken p hp)

/-- The call is told something. -/
theorem hears (h : InHand inv settings owner e calls journal c x) (l : List Note) :
    InHand inv settings owner e calls ((l.map fun y => (c.cell, y)) ++ journal) c x :=
  { h with rest := h.rest.of_notes h.housed.1 (fun _ hp hcell => h.queued hp hcell) l }

/-- The call keeps a profile. -/
theorem keeps (h : InHand inv settings owner e calls journal c x) (v : Option Profile) :
    InHand inv settings owner { e with profiles := e.profiles.setValue c.cell v } calls journal c
      { x with value := v } where
  rest := h.rest.modify c.cell _ (.inl rfl) fun p hp hcell => .inl (h.queued hp hcell)
  taken := h.taken
  housed := h.housed
  cell := by
    rw [Cells.setValue, Cells.cell?_modify, if_pos rfl, h.cell]
    rfl
  holds := h.holds

end InHand

/-- A call that ends gives its lock back, and at most drops its cell from the table. -/
theorem Climb.finish_eq (c : Climb) (y : Ending) (e : Engine) :
    ∃ table, (∀ p ∈ table, p ∈ e.profiles.table) ∧
      c.finish y e = ({ c.release e with
        profiles := { (c.release e).profiles with table := table } }, .ends y.result) := by
  cases y with
  | finished r => exact ⟨e.profiles.table, fun _ hp => hp, rfl⟩
  | crashed => exact ⟨e.profiles.table, fun _ hp => hp, rfl⟩
  | undetected f =>
    rw [finish, dropUndetected, Cells.retire]
    split
    · exact ⟨e.profiles.table.erase c.key, fun p hp => (List.mem_filter.mp hp).1, rfl⟩
    · exact ⟨e.profiles.table, fun _ hp => hp, rfl⟩

/-- At a question for others a call waits. -/
theorem Climb.follow_ask (c : Climb) {q : Query} (hq : q.Outward) (next : q.Answer → Talk Ending)
    (e : Engine) :
    c.follow (.ask q next) e = (e, .waits { c with phase := .talking (.ask q next) }) := by
  cases q with
  | keep p => exact hq.elim
  | run d => rfl
  | prompt message => rfl
  | fetch name => rfl
  | store name secret => rfl
  | erase name => rfl

/-- The calls after one of them has gone on. -/
def joined (calls : Assoc CallId Climb) (c : Climb) :
    Progress Climb Climb.Result → Assoc CallId Climb
  | .waits d => calls ++ [(c.caller, d)]
  | .ends _ => calls

namespace InHand

variable {x : Cell (Option Profile)}

/-- The call asks, and waits for the answer. -/
theorem waits (h : InHand inv settings owner e calls journal c x) {q : Query} (hq : q.Outward)
    {next : q.Answer → Talk Ending}
    (ht : Talk.Fulfils (inv c.key) c.note (.ask q next) x.value (notesOn c.cell journal)) :
    Consistent inv settings owner none e
      (joined calls c (.waits { c with phase := .talking (.ask q next) }))
      ([(c.cell, c.note (.asks q)), (c.cell, c.note (.leaves x.value))] ++ journal) := by
  obtain ⟨hinv, hnext⟩ := (Talk.keeps_ask hq).mp ht
  have hnoted := (h.hears [c.note (.asks q), c.note (.leaves x.value)]).rest
  have hnotes : notesOn c.cell
      ([(c.cell, c.note (.asks q)), (c.cell, c.note (.leaves x.value))] ++ journal) =
        c.note (.asks q) :: c.note (.leaves x.value) :: notesOn c.cell journal := by
    rw [notesOn_append]
    exact congrArg (· ++ notesOn c.cell journal) (notesOn_self c.cell [_, _])
  have hsettled : Consistent inv settings owner none e calls
      ([(c.cell, c.note (.asks q)), (c.cell, c.note (.leaves x.value))] ++ journal) := by
    refine hnoted.settle fun y hy => ?_
    rw [h.cell, Option.some.injEq] at hy
    rw [← hy, h.housed.2, List.map_cons, List.map_cons, List.map_nil, hnotes]
    exact hinv
  refine hsettled.of_calls fun p hp => ?_
  rcases List.mem_append.mp hp with hp | hp
  · exact .inl hp
  · obtain rfl := List.mem_singleton.mp hp
    refine .inr ⟨rfl, h.housed, hq, x, h.cell, h.holds, fun a => ?_⟩
    rw [hnotes]
    exact hnext a

/-- The call ends. -/
theorem ends (h : InHand inv settings owner e calls journal c x) (y : Ending)
    (ht : Talk.Fulfils (inv c.key) c.note (.done y) x.value (notesOn c.cell journal)) :
    Consistent inv settings owner none (c.finish y e).1 calls
      ([(c.cell, c.note (.ends y.result)), (c.cell, c.note (.leaves x.value))] ++ journal) := by
  obtain ⟨table, htable, hfinish⟩ := c.finish_eq y e
  have hnoted := (h.hears [c.note (.ends y.result), c.note (.leaves x.value)]).rest
  rw [hfinish]
  refine ((hnoted.release h.taken).of_table htable).settle fun z hz => ?_
  obtain ⟨w, hw, hvalue⟩ := c.cell?_release e h.cell
  have hwz : w = z := Option.some.inj (hw.symm.trans hz)
  rw [← hwz, hvalue, h.housed.2, notesOn_append, notesOn_self]
  exact ht

theorem value?_eq (h : InHand inv settings owner e calls journal c x) :
    (e.profiles.value? c.cell).join = x.value := by
  rw [Cells.value?, h.cell]
  rfl

/-- **The call goes on**, and all stays consistent: what it leaves in its profile is noted, and what
it comes to. -/
theorem follow (h : InHand inv settings owner e calls journal c x) {t : Talk Ending}
    (ht : Talk.Fulfils (inv c.key) c.note t x.value (notesOn c.cell journal)) :
    Consistent inv settings owner none (c.follow t e).1 (joined calls c (c.follow t e).2)
      ((notesOf c [] (c.follow t e)).map (fun y => (c.cell, y)) ++ journal) := by
  induction t generalizing e x with
  | done y =>
    have hends := h.ends y ht
    obtain ⟨table, htable, hfinish⟩ := c.finish_eq y e
    obtain ⟨w, hw, hvalue⟩ := c.cell?_release e h.cell
    have hleft : ((c.finish y e).1.profiles.value? c.cell).join = x.value := by
      rw [hfinish, ← hvalue]
      exact congrArg Option.join (congrArg (Option.map Cell.value) hw)
    rw [Climb.follow, notesOf, hleft]
    rw [hfinish] at hends ⊢
    exact hends
  | ask q next ih =>
    rcases q.outward_or_keep with hq | ⟨p, rfl⟩
    · rw [c.follow_ask hq, notesOf, h.value?_eq]
      exact h.waits hq ht
    · exact ih () (h.keeps (some p)) ht

end InHand

/-! ## Traffic -/

/-- The engine after a call has come to it and asked for the lock of its login. -/
def Engine.entered (e : Engine) (caller : CallId) (key : Login) : Engine :=
  { e with profiles :=
      (e.profiles.openCell key none).2.enter (e.profiles.openCell key none).1 caller }

theorem Climb.start_eq (caller : CallId) (key : Login) (command : String) (timeout : Duration)
    (on : Option ConnId) (e : Engine) :
    Climb.start caller key command timeout on e =
      if (arrive caller key command timeout on e).admitted (e.entered caller key) then
        (arrive caller key command timeout on e).begin (e.entered caller key)
      else (e.entered caller key, .waits (arrive caller key command timeout on e)) := rfl

theorem Consistent.entered (h : Consistent inv settings owner none e calls journal)
    (hinit : ∀ k, inv k none []) (caller : CallId) (key : Login) :
    ∃ owner', Consistent inv settings owner' none (e.entered caller key) calls journal ∧
      (e.profiles.openCell key none).1 < (e.entered caller key).profiles.next ∧
      owner' (e.profiles.openCell key none).1 = key := by
  obtain ⟨owner', hcell, hlt, howner⟩ := h.withCell hinit key
  refine ⟨owner', ?_, hlt, howner⟩
  have hopen := hcell.modify (e.profiles.withCell key none).1
    (fun x => { x with handles := x.handles + 1 }) (.inr fun _ => rfl)
    fun _ _ _ => .inr fun _ hx => ⟨hx, rfl⟩
  -- Who holds the lock keeps it when another asks for it.
  exact hopen.modify (e.profiles.openCell key none).1 (·.enter caller)
    (.inr fun x => Cell.value_enter x caller)
    fun _ _ _ => .inr fun x hx => ⟨Cell.holder_enter_of_some hx caller, Cell.value_enter x caller⟩

/-- Every call keeps an invariant of the profile of its login and of its history. -/
def AllFulfil (inv : Login → Option Profile → List Note → Prop)
    (settings : ElevationSettings) : Prop :=
  ∀ caller key command timeout v h, inv key v h →
    Talk.Fulfils (inv key) (Note.mk caller key command timeout)
      (ascend settings key command timeout v) v h

/-- The turn of a call has come. -/
theorem Consistent.begin (h : Consistent inv settings owner none e calls journal)
    (hall : AllFulfil inv settings) (htaken : ∀ p ∈ calls, p.1 ≠ c.caller)
    (hhoused : c.cell < e.profiles.next ∧ owner c.cell = c.key) (hadmitted : c.admitted e = true) :
    Consistent inv settings owner none (c.begin e).1 (joined calls c (c.begin e).2)
      ((notesOf c [] (c.begin e)).map (fun y => (c.cell, y)) ++ journal) := by
  obtain ⟨x, hx, hholds⟩ := Cells.admits_iff.mp hadmitted
  have hhand : InHand inv settings owner e calls journal c x :=
    ⟨h.take c.cell, htaken, hhoused, hx, hholds⟩
  have hinv : inv c.key x.value (notesOn c.cell journal) := by
    rw [← hhoused.2]
    exact h.kept c.cell x nofun hx
  rw [Climb.begin, hhand.value?_eq, h.settings]
  exact hhand.follow (hall c.caller c.key c.command c.timeout x.value _ hinv)

namespace Traffic

variable {s t : Traffic}

/-- **Traffic is sound** if its engine fits its calls and notes. -/
def Sound (inv : Login → Option Profile → List Note → Prop) (settings : ElevationSettings)
    (s : Traffic) : Prop :=
  ∃ owner, Consistent inv settings owner none s.engine s.calls s.journal

protected theorem Sound.idle : (idle settings).Sound inv settings := by
  refine ⟨fun _ => ⟨"", "", 0⟩, rfl, ?_, ?_, ?_, ?_, ?_, ?_, ?_⟩
  · exact fun n hn => absurd hn (Nat.not_lt_zero n)
  · exact List.forall_mem_nil _
  · exact List.forall_mem_nil _
  · exact List.forall_mem_nil _
  · exact List.forall_mem_nil _
  · exact List.forall_mem_nil _
  · intro n x _ hx
    cases hx

/-- The settings of sound traffic stay the same. -/
theorem Sound.settings_eq (h : s.Sound inv settings) : s.engine.settings = settings := by
  obtain ⟨owner, h⟩ := h
  exact h.settings

/-- A call that was in hand is back among the calls, or has ended. -/
theorem after_calls_subset (s : Traffic) (c : Climb) (told : List Deed)
    (x : Engine × Progress Climb Climb.Result) :
    ∀ p ∈ (s.after c told x).calls, p ∈ joined (s.calls.erase c.caller) c x.2 := by
  obtain ⟨e, d | r⟩ := x
  · exact fun p hp => hp
  · exact fun p hp => hp

theorem ne_of_mem_erase {calls : Assoc CallId Climb} {id : CallId} :
    ∀ p ∈ calls.erase id, p.1 ≠ id :=
  fun _ hp => of_decide_eq_true (List.mem_filter.mp hp).2

theorem Sound.after {owner : CallId → Login} {x : Engine × Progress Climb Climb.Result}
    {told : List Deed}
    (h : Consistent inv settings owner none x.1 (joined (s.calls.erase c.caller) c x.2)
      ((notesOf c [] x).map (fun y => (c.cell, y)) ++
        ((told.map c.note).map (fun y => (c.cell, y)) ++ s.journal))) :
    (s.after c told x).Sound inv settings := by
  refine ⟨owner, ?_⟩
  have hjournal : (s.after c told x).journal = (notesOf c [] x).map (fun y => (c.cell, y)) ++
      ((told.map c.note).map (fun y => (c.cell, y)) ++ s.journal) := by
    rw [Traffic.after, notesOf_eq, List.map_append, List.append_assoc]
  rw [hjournal]
  exact h.of_calls fun p hp => .inl (s.after_calls_subset c told x p hp)

/-- A call comes. -/
theorem Sound.call (h : s.Sound inv settings) (hinit : ∀ k, inv k none [])
    (hall : AllFulfil inv settings) {id : CallId} (key : Login) (command : String)
    (timeout : Duration) (on : Option ConnId) :
    (s.after (.arrive id key command timeout on s.engine) []
      (Climb.start id key command timeout on s.engine)).Sound inv settings := by
  obtain ⟨owner, h⟩ := h
  obtain ⟨owner', hentered, hlt, howner⟩ := h.entered hinit id key
  have hrest := hentered.erase id
  rw [Climb.start_eq]
  split
  · next hadmitted => exact Sound.after (hrest.begin hall ne_of_mem_erase ⟨hlt, howner⟩ hadmitted)
  · -- A call that has to queue does nothing.
    refine Sound.after (hrest.of_calls fun p hp => ?_)
    rcases List.mem_append.mp hp with hp | hp
    · exact .inl hp
    · obtain rfl := List.mem_singleton.mp hp
      exact .inr ⟨rfl, ⟨hlt, howner⟩, Climb.fits_of_queued rfl⟩

/-- A call hears the answer that it waits for. -/
theorem Sound.answer (h : s.Sound inv settings) (hall : AllFulfil inv settings) {id : CallId}
    {a : Answer} (hc : s.calls.get? id = some c) (hmay : c.mayHear s.engine a = true) :
    (s.after c (c.told a) (c.resume a s.engine)).Sound inv settings := by
  obtain ⟨owner, h⟩ := h
  have hmem := Assoc.mem_of_get? hc
  obtain rfl : c.caller = id := h.callers _ hmem
  have hrest := h.erase c.caller
  have hhoused := h.housed _ hmem
  have hfits := h.fits _ hmem
  obtain ⟨caller, key, command, timeout, on, cell, phase⟩ := c
  cases phase with
  | queued =>
    cases a with
    | admitted => exact Sound.after (hrest.begin hall ne_of_mem_erase hhoused hmay)
    | _ => exact absurd hmay Bool.false_ne_true
  | talking t =>
    cases t with
    | done y => exact hfits.elim
    | ask q next =>
      obtain ⟨y, hy⟩ := Option.isSome_iff_exists.mp hmay
      obtain ⟨-, x, hx, hholds, hnext⟩ := hfits
      have hhand := InHand.hears ⟨hrest.take cell, ne_of_mem_erase, hhoused, hx, hholds⟩
        [Note.mk caller key command timeout (.hears q y)]
      have htold : Climb.told ⟨caller, key, command, timeout, on, cell, .talking (.ask q next)⟩ a =
          [.hears q y] := by
        simp only [Climb.told, hy]
        rfl
      have hresume : Climb.resume ⟨caller, key, command, timeout, on, cell,
            .talking (.ask q next)⟩ a s.engine =
          Climb.follow ⟨caller, key, command, timeout, on, cell, .talking (.ask q next)⟩
            (next y) s.engine := by
        simp only [Climb.resume, hy]
      rw [htold, hresume]
      refine Sound.after (hhand.follow ?_)
      rw [notesOn_append, notesOn_self]
      exact hnext y

/-- **An event keeps traffic sound.** -/
theorem Sound.step (h : s.Sound inv settings) (hinit : ∀ k, inv k none [])
    (hall : AllFulfil inv settings) {ev : Event} (hstep : s.step ev = some t) :
    t.Sound inv settings := by
  cases ev with
  | call id key command timeout on =>
    rw [Traffic.step] at hstep
    split at hstep
    · cases hstep
    · obtain rfl := Option.some.inj hstep
      exact h.call hinit hall key command timeout on
  | answer id a =>
    obtain ⟨c, hc, hstep⟩ := Option.bind_eq_some_iff.mp hstep
    split at hstep
    · next hmay =>
      obtain rfl := Option.some.inj hstep
      exact h.answer hall hc hmay
    · cases hstep
  | abandon id =>
    obtain ⟨c, hc, rfl⟩ := Option.map_eq_some_iff.mp hstep
    obtain ⟨owner, h⟩ := h
    obtain rfl : c.caller = id := h.callers _ (Assoc.mem_of_get? hc)
    exact ⟨owner, (h.erase c.caller).release ne_of_mem_erase⟩
  | clear host =>
    obtain rfl := Option.some.inj hstep
    obtain ⟨owner, h⟩ := h
    exact ⟨owner, h.of_table fun p hp => (List.mem_filter.mp hp).1⟩

/-- Any events keep traffic sound. -/
theorem Sound.run (h : s.Sound inv settings) (hinit : ∀ k, inv k none [])
    (hall : AllFulfil inv settings) {es : List Event} (hrun : s.run es = some t) :
    t.Sound inv settings := by
  induction es generalizing s with
  | nil =>
    obtain rfl := Option.some.inj hrun
    exact h
  | cons ev es ih =>
    obtain ⟨u, hu, hrun⟩ := Option.bind_eq_some_iff.mp hrun
    exact ih (h.step hinit hall hu) hrun

/-- The invariant holds of the profile that the table has for a login. -/
theorem Sound.kept {k : Login} {n : CellId} (hs : s.Sound inv settings)
    (hk : s.engine.profiles.table.get? k = some n) :
    inv k (s.engine.profiles.value? n).join (s.record n) := by
  obtain ⟨owner, hs⟩ := hs
  obtain ⟨hn, ho⟩ := hs.filed _ (Assoc.mem_of_get? hk)
  obtain ⟨x, hx⟩ := hs.made n hn
  have hvalue : (s.engine.profiles.value? n).join = x.value := by
    rw [Cells.value?, hx]
    rfl
  rw [hvalue, ← show owner n = k from ho]
  exact hs.kept n x (Option.some_ne_none n).symm hx

/-- A history is that of the profile in its cell. -/
theorem Sound.exists_kept {n : CellId} {y : Note} (hs : s.Sound inv settings)
    (hy : y ∈ s.record n) : ∃ k, inv k (s.engine.profiles.value? n).join (s.record n) := by
  obtain ⟨owner, hs⟩ := hs
  have hn : n < s.engine.profiles.next := by
    obtain ⟨z, hz, -⟩ := List.mem_map.mp hy
    obtain ⟨hz, hzn⟩ := List.mem_filter.mp hz
    exact of_decide_eq_true hzn ▸ hs.noted z hz
  obtain ⟨x, hx⟩ := hs.made n hn
  refine ⟨owner n, ?_⟩
  rw [Cells.value?, hx]
  exact hs.kept n x (Option.some_ne_none n).symm hx

/-- **What every call keeps holds of every history**, at every moment of any run. -/
theorem inv_of_run (hinit : ∀ k, inv k none []) (hall : AllFulfil inv settings)
    {es : List Event} (hrun : (idle settings).run es = some t) (n : CellId) :
    ∃ k v, inv k v (t.record n) := by
  obtain ⟨owner, h⟩ := Sound.idle.run hinit hall hrun
  by_cases hn : n < t.engine.profiles.next
  · obtain ⟨x, hx⟩ := h.made n hn
    exact ⟨owner n, x.value, h.kept n x nofun hx⟩
  · refine ⟨owner n, none, ?_⟩
    have hempty : t.record n = [] := by
      refine notesOn_eq_nil fun p hp hpn => hn ?_
      rw [← hpn]
      exact h.noted p hp
    rw [hempty]
    exact hinit (owner n)

end Traffic

end RemoteShell.Elevation
