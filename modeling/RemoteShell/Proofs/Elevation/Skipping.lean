import RemoteShell.Proofs.Elevation.Marks
import RemoteShell.Proofs.Elevation.Orderly

/-!
# A failed method stays skipped

When a check of a method has failed on a login, the method is not used on this login any more until
the login is forgotten: nothing is sent that was built with it, its password is not asked for, and
every later call that finds no method lists it as failed before.  This holds in orderly traffic,
whatever else happens: calls on this login and on others, other methods that pass or fail, faults of
connections, calls that are given up, and detections that are repeated.

The profile of the login keeps the mark, and the table keeps the profile; every call that gets the
lock of the login from then on begins with the mark.

## Main definitions

* `Traffic.Adds`, `Traffic.FailedOn`: an event makes a note, and a check failed some time ago
* `Climb.Owes`, `Climb.Pays`: a call owes the mention of a method, and gives it
* `Traffic.Skips`: the method is marked, and all calls on the login heed it

## Main results

* `Skips.of_failed`, `Skips.step`: the mark is made, and an event keeps it
* `skipped_until_forgotten`: what all this comes to
-/

namespace RemoteShell.Elevation

variable {settings : ElevationSettings} {k : Login} {m : Method} {n : CellId} {c d : Climb}
  {e : Engine} {p : Profile} {v : Option Profile} {h : List Note}

/-- A call begins under a number. -/
def Event.Begins (id : CallId) : Event → Prop
  | .call i .. => i = id
  | _ => False

/-! ## Mentions that are owed -/

namespace Climb

/-- **A call owes the mention of a method**, whatever it is answered. -/
def Owes (c : Climb) (m : Method) : Prop :=
  ∃ q next v h, c.phase = .talking (.ask q next) ∧ ∀ a,
    Talk.Keeps (Marked c.key) c.note (Closes c.key c.note [m]) (next a) v (heard c.note q a v h)

/-- **A call gives the mention that it owes** when it has gone on: it still owes it while it waits,
and it has given it if it found no method.  It may be excused, if it passes on the fault of a
command. -/
structure Pays (c : Climb) (m : Method) (excused : Fault → Prop)
    (x : Engine × Progress Climb Result) : Prop where
  waits : ∀ d, x.2 = .waits d → d.Owes m
  ends : ∀ host attempts, x.2 = .ends (.finished (.error (.elevationUnavailable host attempts))) →
    ¬ excused (.elevationUnavailable host attempts) → ⟨m, .previouslyFailed⟩ ∈ attempts

/-- A call stays on its login. -/
theorem key_follow {t : Talk Ending} (hd : (c.follow t e).2 = .waits d) : d.key = c.key := by
  induction t generalizing e with
  | done y =>
    obtain ⟨table, -, hfinish⟩ := c.finish_eq y e
    rw [follow, hfinish] at hd
    cases hd
  | ask q next ih =>
    rcases q.outward_or_keep with hq | ⟨p, rfl⟩
    · rw [c.follow_ask hq] at hd
      obtain rfl := Progress.waits.inj hd
      rfl
    · exact ih () hd

/-- A call that follows its contract gives what it owes. -/
theorem pays_follow {t : Talk Ending}
    (ht : Talk.Keeps (Marked c.key) c.note (Closes c.key c.note [m]) t v h) :
    c.Pays m (Told · h) (c.follow t e) := by
  induction t generalizing e v with
  | done y =>
    obtain ⟨table, -, hfinish⟩ := c.finish_eq y e
    rw [follow, hfinish]
    refine ⟨by simp, fun host attempts hends hnot => ?_⟩
    have hresult : y.result = .finished (.error (.elevationUnavailable host attempts)) :=
      Progress.ends.inj hends
    exact ((ht.2 host attempts hresult).resolve_left hnot) m List.mem_cons_self
  | ask q next ih =>
    rcases q.outward_or_keep with hq | ⟨p, rfl⟩
    · rw [c.follow_ask hq]
      refine ⟨fun d hd => ?_, by simp⟩
      obtain rfl := Progress.waits.inj hd
      exact ⟨q, next, v, h, rfl, ((Talk.keeps_ask hq).mp ht).2⟩
    · exact ih () ht

/-- A call that begins when the method is marked has no excuse. -/
theorem pays_begin (hv : Marked c.key (e.profiles.value? c.cell).join h)
    (hm : m ∈ marksOf (e.profiles.value? c.cell).join) : c.Pays m (fun _ => False) (c.begin e) := by
  -- Whatever was heard last, it was not heard by this call.
  have hleft : Marked c.key (e.profiles.value? c.cell).join
      (c.note (.leaves (e.profiles.value? c.cell).join) :: h) := hv.leaves
  have hascend : Talk.Keeps (Marked c.key) c.note
      (Closes c.key c.note (marksOf (e.profiles.value? c.cell).join))
      (ascend e.settings c.key c.command c.timeout (e.profiles.value? c.cell).join)
      (e.profiles.value? c.cell).join
      (c.note (.leaves (e.profiles.value? c.cell).join) :: h) := hleft.keeps_ascend e.settings
  have hpays := pays_follow (e := e) (hascend.mono fun x v h hx =>
    show Closes c.key c.note [m] x v h from
      ⟨hx.1, fun host attempts hr => (hx.2 host attempts hr).imp_right fun howed l hl =>
        List.mem_singleton.mp hl ▸ howed m hm⟩)
  refine ⟨hpays.waits, fun host attempts hends _ => hpays.ends host attempts hends ?_⟩
  rintro ⟨x, d, earlier, hx, hdeed⟩
  obtain ⟨rfl, -⟩ := List.cons.inj hx
  cases hdeed

end Climb

namespace Traffic

variable {s t u w : Traffic} {ev : Event} {es since : List Event} {id : CallId} {x y : Note}

/-! ## Notes and profiles -/

/-- **An event makes a note.** -/
def Adds (s : Traffic) (ev : Event) (t : Traffic) (x : Note) : Prop :=
  s.step ev = some t ∧ ∃ n new, t.journal = new ++ s.journal ∧ (n, x) ∈ new

/-- **A check of a method failed** on a login in orderly traffic.  It was heard by a call with this
number, and these events have happened since; none of them forgot the login. -/
def FailedOn (settings : ElevationSettings) (k : Login) (m : Method) (id : CallId)
    (since : List Event) (u : Traffic) : Prop :=
  ∃ es ev s t x, (idle settings).run es = some s ∧ s.Adds ev t x ∧
    x.caller = id ∧ x.key = k ∧ x.Fails m ∧
    t.run since = some u ∧ (∀ g ∈ since, ¬ g.Forgets k) ∧
    (idle settings).Orderly (es ++ ev :: since)

/-- Traffic is orderly if nothing is forgotten at all. -/
theorem orderly_of_forall (h : ∀ ev ∈ es, ∀ k, ¬ ev.Forgets k) : s.Orderly es := by
  induction es generalizing s with
  | nil => trivial
  | cons ev es ih =>
    obtain ⟨hev, hes⟩ := List.forall_mem_cons.mp h
    exact ⟨fun p _ => hev p.2.key, fun t _ => ih hes⟩

/-- An event at most adds notes. -/
theorem Happens.exists_journal (hh : s.Happens ev t) : ∃ new, t.journal = new ++ s.journal := by
  cases hh with
  | abandons call => exact ⟨[], rfl⟩
  | clears host => exact ⟨[], rfl⟩
  | _ => exact ⟨_, rfl⟩

/-- The latest notes are those that the event added. -/
theorem adds_of_getElem? (hstep : s.step ev = some t) {i : Nat} (hx : t.journal[i]? = some (n, x))
    (hi : i < t.journal.length - s.journal.length) : s.Adds ev t x := by
  obtain ⟨new, hnew⟩ := (happens hstep).exists_journal
  refine ⟨hstep, n, new, hnew, ?_⟩
  have hlength : i < new.length := by
    rw [hnew, List.length_append] at hi
    omega
  rw [hnew, List.getElem?_append_left hlength] at hx
  exact List.mem_of_getElem? hx

/-- Where a check failed there is a profile. -/
theorem Sound.profile_of_failed (hs : s.Sound Marked settings) (hf : Failed m (s.record n)) :
    ∃ p, (s.engine.profiles.value? n).join = some p := by
  obtain ⟨k, hmarked⟩ := hs.exists_kept hf.choose_spec.1
  have hm := (hmarked.marks m).mpr hf
  cases hvalue : (s.engine.profiles.value? n).join with
  | none =>
    rw [hvalue] at hm
    exact absurd hm List.not_mem_nil
  | some p => exact ⟨p, rfl⟩

/-- The notes that are new on a login are notes on its cell. -/
theorem Happens.notes (hh : s.Happens ev t) (hg : s.Guarded)
    (hk : s.engine.profiles.table.get? k = some n) :
    ∃ new, t.journal = new ++ s.journal ∧ ∀ z ∈ new, z.2.key = k → z.1 = n := by
  have hafter {c : Climb} (told : List Deed) (x : Engine × Progress Climb Climb.Result)
      (hcell : c.key = k → c.cell = n) : ∃ new, (s.after c told x).journal = new ++ s.journal ∧
        ∀ z ∈ new, z.2.key = k → z.1 = n := by
    refine ⟨_, rfl, fun z hz => ?_⟩
    obtain ⟨y, hy, rfl⟩ := List.mem_map.mp hz
    obtain ⟨d, -, rfl⟩ := List.mem_map.mp hy
    exact hcell
  have harrive (id : CallId) (key : Login) (hkey : key = k) :
      (s.engine.profiles.openCell key none).1 = n := by
    subst hkey
    change (Cells.withCell ..).1 = n
    unfold Cells.withCell
    rw [hk]
  have hfiled {id : CallId} {c : Climb} (call : s.calls.get? id = some c) (hkey : c.key = k) :
      c.cell = n := Option.some.inj ((hg.filed call).symm.trans (hkey ▸ hk))
  cases hh with
  | @queues id key => exact hafter _ _ (harrive id key)
  | @enters id key => exact hafter _ _ (harrive id key)
  | begins call turn => exact hafter _ _ (hfiled call)
  | hears call phase takes => exact hafter _ _ (hfiled call)
  | abandons call => exact ⟨[], rfl, List.forall_mem_nil _⟩
  | clears host => exact ⟨[], rfl, List.forall_mem_nil _⟩

/-- Of the calls on one cell only one talks. -/
theorem Sound.eq_of_talking {inv : Login → Option Profile → List Note → Prop} {i j : CallId}
    (hs : s.Sound inv settings) (hc : s.calls.get? i = some c) (hd : s.calls.get? j = some d)
    (hcell : c.cell = d.cell) (hcq : c.phase ≠ .queued) (hdq : d.phase ≠ .queued) : i = j := by
  obtain ⟨owner, hs⟩ := hs
  have holds {i : CallId} {c : Climb} (hc : s.calls.get? i = some c) (hq : c.phase ≠ .queued) :
      ∃ x, s.engine.profiles.cell? c.cell = some x ∧ x.holder = some i := by
    have hfits := hs.fits _ (Assoc.mem_of_get? hc)
    have hcaller : c.caller = i := hs.callers _ (Assoc.mem_of_get? hc)
    unfold Climb.Fits at hfits
    split at hfits
    · next hphase => exact absurd hphase hq
    · exact hfits.elim
    · obtain ⟨-, x, hx, hholder, -⟩ := hfits
      exact ⟨x, hx, hcaller ▸ hholder⟩
  obtain ⟨x, hx, hi⟩ := holds hc hcq
  obtain ⟨z, hz, hj⟩ := holds hd hdq
  rw [hcell, hz, Option.some.injEq] at hx
  rw [← hx, hj, Option.some.injEq] at hi
  exact hi.symm

/-! ## The mark -/

/-- **A method is skipped** on a login: its check failed in the history of the profile that the
table has for the login, and all calls on the login owe the mention of it, but for those that are
spared. -/
structure Skips (k : Login) (m : Method) (n : CellId) (spared : CallId → Prop) (s : Traffic) :
    Prop where
  filed : s.engine.profiles.table.get? k = some n
  failed : Failed m (s.record n)
  owes : ∀ i c, s.calls.get? i = some c → c.key = k → ¬ spared i → c.phase = .queued ∨ c.Owes m

variable {spared : CallId → Prop}

/-- The calls after one of them has gone on. -/
theorem get?_after {told : List Deed} {x : Engine × Progress Climb Climb.Result} {i : CallId}
    (hd : (s.after c told x).calls.get? i = some d) :
    (i ≠ c.caller ∧ s.calls.get? i = some d) ∨ i = c.caller ∧ x.2 = .waits d := by
  by_cases hi : i = c.caller
  · subst hi
    refine .inr ⟨rfl, ?_⟩
    obtain ⟨e, d' | r⟩ := x
    · exact congrArg Progress.waits (Option.some.inj ((Assoc.get?_put_self ..).symm.trans hd))
    · exact absurd ((Assoc.get?_erase_self ..).symm.trans hd) (Option.some_ne_none d).symm
  · refine .inl ⟨hi, ?_⟩
    obtain ⟨e, d' | r⟩ := x
    · exact (Assoc.get?_put_of_ne _ _ hi).symm.trans hd
    · exact (Assoc.get?_erase_of_ne _ hi).symm.trans hd

/-- The value of the cell of a login is not changed by a call that comes. -/
theorem value?_entered (id : CallId) (key : Login)
    (hk : s.engine.profiles.table.get? key = some n) :
    (s.engine.profiles.openCell key none).1 = n ∧
      ((s.engine.entered id key).profiles.value? n).join =
        (s.engine.profiles.value? n).join := by
  have hopen : s.engine.profiles.withCell key none = (n, s.engine.profiles) := by
    unfold Cells.withCell
    rw [hk]
  unfold Engine.entered Cells.openCell
  rw [hopen]
  refine ⟨rfl, ?_⟩
  simp only [Cells.value?, Cells.enter, Cells.cell?_modify, if_true]
  cases s.engine.profiles.cell? n with
  | none => rfl
  | some x => simp

/-- **A call goes on**, and if it is on the login and not spared, it queues or gives what it
owes. -/
structure Goes (k : Login) (m : Method) (spared : CallId → Prop) (ev : Event) (c : Climb)
    (told : List Deed) (x : Engine × Progress Climb Climb.Result) : Prop where
  numbered : ∀ i, ev.Begins i → i = c.caller
  hears : ∀ d ∈ told, ∃ q a, d = .hears q a
  stays : ∀ d, x.2 = .waits d → d.key = c.key
  heeds : c.key = k → (spared c.caller → ev.Begins c.caller) →
    (c.phase = .queued ∧ x.2 = .waits c) ∨
      c.Pays m (fun f => ev = .answer c.caller (.replied (.error f))) x

/-- Whichever call goes on, it heeds the mark. -/
theorem Skips.goes (h : s.Skips k m n spared) (hs : s.Sound Marked settings) (hg : s.Guarded)
    (hh : s.Happens ev t) :
    (∃ c told x, t = s.after c told x ∧ Goes k m spared ev c told x) ∨
      t.journal = s.journal ∧ (∀ i, ¬ ev.Begins i) ∧
        ∀ i d, t.calls.get? i = some d → s.calls.get? i = some d := by
  have hmarked := hs.kept h.filed
  have hm := (hmarked.marks m).mpr h.failed
  cases hh with
  | @queues id key command timeout on new =>
    refine .inl ⟨_, _, _, rfl, fun i hi => hi.symm, List.forall_mem_nil _, fun d hd => ?_,
      fun _ _ => .inl ⟨rfl, rfl⟩⟩
    rw [← Progress.waits.inj hd]
  | @enters id key command timeout on new turn =>
    refine .inl ⟨_, _, _, rfl, fun i hi => hi.symm, List.forall_mem_nil _,
      fun d => Climb.key_follow, ?_⟩
    rintro (rfl : key = k) -
    obtain ⟨hcell, hvalue⟩ := value?_entered id key h.filed
    have hpays := Climb.pays_begin (h := s.record n)
      (c := .arrive id key command timeout on s.engine) (e := s.engine.entered id key) (m := m)
    rw [show (Climb.arrive id key command timeout on s.engine).cell = n from hcell, hvalue] at hpays
    have hpays := hpays hmarked hm
    exact .inr ⟨hpays.waits, fun host attempts hends _ => hpays.ends host attempts hends not_false⟩
  | @begins id c call turn =>
    refine .inl ⟨_, _, _, rfl, fun i hi => hi.elim, List.forall_mem_nil _,
      fun d => Climb.key_follow, ?_⟩
    rintro rfl -
    have hcell : c.cell = n := Option.some.inj ((hg.filed call).symm.trans h.filed)
    have hpays := Climb.pays_begin (h := s.record n) (c := c) (e := s.engine) (m := m)
    rw [hcell] at hpays
    have hpays := hpays hmarked hm
    exact .inr ⟨hpays.waits, fun host attempts hends _ => hpays.ends host attempts hends not_false⟩
  | @hears id a c q next x call phase takes =>
    refine .inl ⟨_, _, _, rfl, fun i hi => hi.elim, ?_, fun d => Climb.key_follow, ?_⟩
    · rintro d hd
      exact ⟨q, x, List.mem_singleton.mp hd⟩
    · intro hkey hspared
      have hid := hs.caller_eq call
      have howes := (h.owes id c call hkey fun hi => hspared (hid ▸ hi)).resolve_left
        (by simp [phase])
      obtain ⟨q', next', v, h', hphase, hkeeps⟩ := howes
      obtain ⟨rfl, hnext⟩ : q = q' ∧ HEq next next' := by
        have := Climb.Phase.talking.inj (phase.symm.trans hphase)
        exact Dialogue.ask.inj this
      obtain rfl := eq_of_heq hnext
      have hpays := Climb.pays_follow (e := s.engine) (hkeeps x)
      refine .inr ⟨hpays.waits, fun host attempts hends hnot => hpays.ends host attempts hends ?_⟩
      -- The fault of a command that was heard last is the answer of this event.
      rintro ⟨y, d, earlier, hy, hdeed⟩
      obtain ⟨rfl, -⟩ := List.cons.inj hy
      obtain ⟨rfl, hx⟩ := Deed.hears.inj hdeed
      obtain rfl := eq_of_heq hx
      cases a with
      | replied r =>
        obtain rfl := Option.some.inj takes
        exact hnot (hid ▸ rfl)
      | _ => cases takes
  | abandons call =>
    refine .inr ⟨rfl, fun i hi => hi, fun i d hd => ?_⟩
    rename_i id c
    by_cases hi : i = id
    · subst hi
      exact absurd ((Assoc.get?_erase_self ..).symm.trans hd) (Option.some_ne_none d).symm
    · exact (Assoc.get?_erase_of_ne _ hi).symm.trans hd
  | clears host => exact .inr ⟨rfl, fun i hi => hi, fun i d hd => hd⟩

/-- What a call notes: what it was told, what it leaves, and what it comes to. -/
theorem deed_of_mem_notesOf {told : List Deed} {x : Engine × Progress Climb Climb.Result}
    (hy : y ∈ notesOf c told x) : y.key = c.key ∧ y.caller = c.caller ∧
      (y.deed ∈ told ∨ (∃ v, y.deed = .leaves v) ∨ (∃ q, y.deed = .asks q) ∨
        ∃ r, y.deed = .ends r ∧ x.2 = .ends r) := by
  obtain ⟨d, hd, rfl⟩ := List.mem_map.mp hy
  refine ⟨rfl, rfl, ?_⟩
  obtain ⟨e, d' | r⟩ := x
  · cases hphase : d'.phase with
    | queued =>
      simp only [Climb.comesTo, hphase] at hd
      exact .inl hd
    | talking talk =>
      cases talk with
      | done z =>
        simp only [Climb.comesTo, hphase] at hd
        exact .inl hd
      | ask q next =>
        simp only [Climb.comesTo, hphase] at hd
        rcases List.mem_cons.mp hd with rfl | hd
        · exact .inr (.inr (.inl ⟨q, rfl⟩))
        rcases List.mem_cons.mp hd with rfl | hd
        · exact .inr (.inl ⟨_, rfl⟩)
        · exact .inl hd
  · rcases List.mem_cons.mp hd with rfl | hd
    · exact .inr (.inr (.inr ⟨r, rfl, rfl⟩))
    rcases List.mem_cons.mp hd with rfl | hd
    · exact .inr (.inl ⟨_, rfl⟩)
    · exact .inl hd

/-- **The mark is made** when the failed check is heard: the table keeps the profile, and all other
calls on the login still queue. -/
theorem Skips.of_failed (hs : s.Sound Marked settings) (hg : s.Guarded)
    (ht : t.Sound Marked settings) (hx : s.Adds ev t x) (hkey : x.key = k) (hfails : x.Fails m) :
    ∃ n, t.Skips k m n (· = x.caller) := by
  obtain ⟨hstep, l, new, hnew, hmem⟩ := hx
  obtain ⟨password, limit, b, hdeed, hb⟩ := hfails
  have hh := happens hstep
  have hquiet {c : Climb} {told : List Deed} {z : Engine × Progress Climb Climb.Result}
      (hafter : t = s.after c told z) : (l = c.cell ∧ c.key = k ∧ c.caller = x.caller) ∧
        .hears (.run (.check m password limit)) b ∈ told := by
    have hnew' : new = (notesOf c told z).map fun y => (c.cell, y) :=
      List.append_cancel_right (hnew.symm.trans (congrArg Traffic.journal hafter))
    rw [hnew'] at hmem
    obtain ⟨y, hy, hyx⟩ := List.mem_map.mp hmem
    obtain ⟨rfl, rfl⟩ := Prod.mk.inj hyx
    obtain ⟨hykey, hycaller, hytold⟩ := deed_of_mem_notesOf hy
    refine ⟨⟨rfl, hykey.symm.trans hkey, hycaller.symm⟩, ?_⟩
    rw [hdeed] at hytold
    simpa using hytold
  have hjournal : t.journal ≠ s.journal := by
    intro hsame
    rw [hsame] at hnew
    have : new = [] := List.append_cancel_right (hnew.symm.trans (List.nil_append _).symm)
    rw [this] at hmem
    cases hmem
  have hfailed : Failed m (t.record l) := by
    refine ⟨x, ?_, password, limit, b, hdeed, hb⟩
    refine List.mem_map.mpr ⟨(l, x), List.mem_filter.mpr ⟨?_, decide_eq_true rfl⟩, rfl⟩
    rw [hnew]
    exact List.mem_append_left _ hmem
  obtain ⟨p, hp⟩ := ht.profile_of_failed hfailed
  cases hh with
  | queues new => exact absurd (hquiet rfl).2 List.not_mem_nil
  | enters new turn => exact absurd (hquiet rfl).2 List.not_mem_nil
  | begins call turn => exact absurd (hquiet rfl).2 List.not_mem_nil
  | abandons call => exact absurd rfl hjournal
  | clears host => exact absurd rfl hjournal
  | @hears id a c q next z call phase takes =>
    obtain ⟨⟨rfl, rfl, hcaller⟩, -⟩ := hquiet rfl
    refine ⟨c.cell, (happens hstep).filed not_false (hg.filed call) hp, hfailed, ?_⟩
    intro i d hd hdk hspared
    rcases get?_after hd with ⟨hi, hd⟩ | ⟨hi, -⟩
    · refine .inl (Classical.byContradiction fun hdq => hi ?_)
      have hcell : d.cell = c.cell :=
        Option.some.inj ((hg.filed hd).symm.trans (hdk ▸ hg.filed call))
      rw [hs.caller_eq call]
      exact hs.eq_of_talking hd call hcell hdq (by simp [phase])
    · exact absurd (hi.trans hcaller) hspared

/-- **An event keeps the mark**, unless it forgets the login. -/
theorem Skips.step (h : s.Skips k m n spared) (hs : s.Sound Marked settings) (hg : s.Guarded)
    (ht : t.Sound Marked settings) (hstep : s.step ev = some t) (hkept : ¬ ev.Forgets k) :
    t.Skips k m n (fun i => spared i ∧ ¬ ev.Begins i) := by
  have hh := happens hstep
  obtain ⟨new, hnew, -⟩ := hh.notes hg h.filed
  have hfailed : Failed m (t.record n) := by
    obtain ⟨x, hx, hfails⟩ := h.failed
    refine ⟨x, ?_, hfails⟩
    rw [record, hnew, notesOn_append]
    exact List.mem_append_right _ hx
  obtain ⟨p, hp⟩ := ht.profile_of_failed hfailed
  refine ⟨hh.filed hkept h.filed hp, hfailed, fun i d hd hdk hspared => ?_⟩
  rcases h.goes hs hg hh with ⟨c, told, x, rfl, hgoes⟩ | ⟨-, hbegins, hcalls⟩
  · rcases get?_after hd with ⟨hi, hd⟩ | ⟨rfl, hwaits⟩
    · exact h.owes i d hd hdk fun hsp => hspared ⟨hsp, fun hb => hi (hgoes.numbered i hb)⟩
    · have hckey : c.key = k := (hgoes.stays d hwaits).symm.trans hdk
      have hbegins (hsp : spared c.caller) : ev.Begins c.caller :=
        Classical.byContradiction fun hb => hspared ⟨hsp, hb⟩
      rcases hgoes.heeds hckey hbegins with ⟨hphase, hqueues⟩ | hpays
      · obtain rfl : c = d := Progress.waits.inj (hqueues.symm.trans hwaits)
        exact .inl hphase
      · exact .inr (hpays.waits d hwaits)
  · exact h.owes i d (hcalls i d hd) hdk fun hsp => hspared ⟨hsp, hbegins i⟩

/-- Events keep the mark that do not forget the login. -/
theorem Skips.run (h : s.Skips k m n spared) (hs : s.Sound Marked settings) (hg : s.Guarded)
    (ho : s.Orderly since) (hkept : ∀ g ∈ since, ¬ g.Forgets k) (hrun : s.run since = some t) :
    t.Skips k m n fun i => spared i ∧ ∀ g ∈ since, ¬ g.Begins i := by
  induction since generalizing s spared with
  | nil =>
    obtain rfl := Option.some.inj hrun
    exact ⟨h.filed, h.failed, fun i c hc hck hsp =>
      h.owes i c hc hck fun hi => hsp ⟨hi, List.forall_mem_nil _⟩⟩
  | cons ev since ih =>
    obtain ⟨u, hu, hrun⟩ := Option.bind_eq_some_iff.mp hrun
    obtain ⟨hev, hkept⟩ := List.forall_mem_cons.mp hkept
    have hus := hs.step Marked.empty (Marked.fulfils_ascend settings) hu
    have hug := hg.step (fun _ _ hc => hs.caller_eq hc) ho.1 hu
    have hlast := ih (h.step hs hg hus hu hev) hus hug (ho.2 u hu) hkept hrun
    refine ⟨hlast.filed, hlast.failed, fun i c hc hck hsp => hlast.owes i c hc hck fun hi => ?_⟩
    exact hsp ⟨hi.1.1, List.forall_mem_cons.mpr ⟨hi.1.2, hi.2⟩⟩

/-- **What an event adds to the notes on the login heeds the mark.** -/
theorem Skips.heeds (h : s.Skips k m n spared) (hs : s.Sound Marked settings) (hg : s.Guarded)
    (ht : t.Sound Marked settings) (hy : s.Adds ev t y) (hkey : y.key = k) :
    ¬ y.Uses m ∧ ∀ host attempts,
      y.deed = .ends (.finished (.error (.elevationUnavailable host attempts))) →
      ev ≠ .answer y.caller (.replied (.error (.elevationUnavailable host attempts))) →
      (spared y.caller → ev.Begins y.caller) → ⟨m, .previouslyFailed⟩ ∈ attempts := by
  obtain ⟨hstep, l, new, hnew, hmem⟩ := hy
  have hh := happens hstep
  constructor
  · -- The note is later in the history of the profile than the check that failed.
    obtain ⟨new', hnew', hcells⟩ := hh.notes hg h.filed
    obtain rfl : new = new' := List.append_cancel_right (hnew.symm.trans hnew')
    obtain rfl : l = n := hcells _ hmem hkey
    have hyrecord : y ∈ notesOn l new :=
      List.mem_map.mpr ⟨(l, y), List.mem_filter.mpr ⟨hmem, decide_eq_true rfl⟩, rfl⟩
    obtain ⟨later, between, hsplit⟩ := List.append_of_mem hyrecord
    have hrecord : t.record l = later ++ y :: (between ++ s.record l) := by
      rw [record, hnew, notesOn_append, hsplit, List.append_assoc, List.cons_append]
      rfl
    obtain ⟨k', hmarked⟩ := ht.exists_kept (n := l) (y := y) (by rw [hrecord]; simp)
    refine hmarked.heeded later y _ m hrecord ?_
    obtain ⟨x, hx, hfails⟩ := h.failed
    exact ⟨x, List.mem_append_right _ hx, hfails⟩
  · intro host attempts hdeed hself hspared
    rcases h.goes hs hg hh with ⟨c, told, x, rfl, hgoes⟩ | ⟨hsame, -⟩
    · have hnotes : new = (notesOf c told x).map fun y => (c.cell, y) :=
        List.append_cancel_right hnew.symm
      rw [hnotes] at hmem
      obtain ⟨z, hz, hzy⟩ := List.mem_map.mp hmem
      obtain ⟨rfl, rfl⟩ := Prod.mk.inj hzy
      obtain ⟨hzkey, hzcaller, hztold⟩ := deed_of_mem_notesOf hz
      have hends : x.2 = .ends (.finished (.error (.elevationUnavailable host attempts))) := by
        rw [hdeed] at hztold
        rcases hztold with htold | ⟨v, hv⟩ | ⟨q, hq⟩ | ⟨r, hr, hx⟩
        · obtain ⟨q, a, hqa⟩ := hgoes.hears _ htold
          cases hqa
        · cases hv
        · cases hq
        · rw [hx, Deed.ends.inj hr]
      rw [hzcaller] at hself hspared
      rcases hgoes.heeds (hzkey.symm.trans hkey) hspared with ⟨-, hqueues⟩ | hpays
      · rw [hends] at hqueues
        cases hqueues
      · exact hpays.ends host attempts hends hself
    · rw [hsame] at hnew
      have hnil : new = [] := List.append_cancel_right (hnew.symm.trans (List.nil_append _).symm)
      rw [hnil] at hmem
      cases hmem

/-- Where a check failed and the login was not forgotten since, the method is skipped. -/
theorem FailedOn.skips (h : FailedOn settings k m id since u) :
    u.Sound Marked settings ∧ u.Guarded ∧
      ∃ n, u.Skips k m n fun i => i = id ∧ ∀ g ∈ since, ¬ g.Begins i := by
  obtain ⟨es, ev, s, t, x, hes, hx, rfl, hkey, hfails, hsince, hkept, ho⟩ := h
  have hall := Marked.fulfils_ascend settings
  have hs : s.Sound Marked settings := Sound.idle.run Marked.empty hall hes
  have ht : t.Sound Marked settings := hs.step Marked.empty hall hx.1
  obtain ⟨hoes, hoev⟩ := orderly_append ho
  have hosince := hoev s hes
  have hg : s.Guarded := (Guarded.idle settings).run Sound.idle Marked.empty hall hoes hes
  have htg : t.Guarded := hg.step (fun _ _ hc => hs.caller_eq hc) hosince.1 hx.1
  obtain ⟨n, hskips⟩ := Skips.of_failed hs hg ht hx hkey hfails
  have hot := hosince.2 t hx.1
  exact ⟨ht.run Marked.empty hall hsince, htg.run ht Marked.empty hall hot hsince, n,
    hskips.run ht htg hot hkept hsince⟩

/-- **A failed method stays skipped.**  The marks on a login are the methods whose check failed in
the history of its profile, and no others.  Once a check of a method has failed on a login in
orderly traffic, and as long as the login is not forgotten, no call on the login sends anything that
was built with the method or asks for its password, and whatever call finds no method lists it as
failed before, but for the very call that heard the check fail, and for the fault of a command that
is passed on. -/
theorem skipped_until_forgotten (settings : ElevationSettings) :
    (∀ es s, (idle settings).run es = some s → ∀ k n p,
      s.engine.profiles.table.get? k = some n →
      (s.engine.profiles.value? n).join = some p →
        ∀ m, m ∈ p.failed ↔ ∃ x ∈ s.record n, x.key = k ∧ x.Fails m) ∧
    ∀ k m id since u, FailedOn settings k m id since u → ∀ ev w y, u.Adds ev w y → y.key = k →
      ¬ y.Uses m ∧ ∀ host attempts,
        y.deed = .ends (.finished (.error (.elevationUnavailable host attempts))) →
        ev ≠ .answer y.caller (.replied (.error (.elevationUnavailable host attempts))) →
        (y.caller = id → ∃ g ∈ since ++ [ev], g.Begins id) → ⟨m, .previouslyFailed⟩ ∈ attempts := by
  have hall := Marked.fulfils_ascend settings
  constructor
  · intro es s hes k n p hk hp m
    have hs : s.Sound Marked settings := Sound.idle.run Marked.empty hall hes
    have hmarked := hs.kept hk
    rw [hp] at hmarked
    refine (hmarked.marks m).trans ⟨?_, fun ⟨x, hx, _, hfails⟩ => ⟨x, hx, hfails⟩⟩
    exact fun ⟨x, hx, hfails⟩ => ⟨x, hx, hmarked.keyed x hx, hfails⟩
  · intro k m id since u hfailed ev w y hy hkey
    obtain ⟨hs, hg, n, hskips⟩ := hfailed.skips
    obtain ⟨huses, hends⟩ := hskips.heeds hs hg (hs.step Marked.empty hall hy.1) hy hkey
    refine ⟨huses, fun host attempts hdeed hself hlater => hends host attempts hdeed hself ?_⟩
    rintro ⟨hid, hnot⟩
    obtain ⟨g, hg, hbegins⟩ := hlater hid
    rcases List.mem_append.mp hg with hg | hg
    · exact absurd (hid ▸ hbegins) (hnot g hg)
    · exact hid ▸ List.mem_singleton.mp hg ▸ hbegins

/-- Two calls on a login.  The first one finds `sudo` and gets a password from the operator, which
is about to be checked; the second one waits for its turn. -/
def wrongPassword : List Event :=
  [.call 0 ⟨"ann", "a", 22⟩ "id" (.ofSecs 60) none, .call 1 ⟨"ann", "a", 22⟩ "ls" (.ofSecs 60) none,
    -- The answers to the probes: only `command -v sudo` succeeds.
    .answer 0 (.replied (.error (.commandTimeout "a" (.ofSecs 15)))),
    .answer 0 (.replied (.error (.commandTimeout "a" (.ofSecs 15)))),
    .answer 0 (.replied (.ok ⟨"", "", 0⟩)),
    .answer 0 (.replied (.error (.commandTimeout "a" (.ofSecs 15)))),
    .answer 0 (.replied (.error (.commandTimeout "a" (.ofSecs 15)))),
    .answer 0 (.replied (.error (.commandTimeout "a" (.ofSecs 15)))),
    .answer 0 (.secret none), .answer 0 (.secret (some "pw"))]

/-- The password is wrong.  The second call does not ask for it again, and says why it did not run
its command. -/
theorem skipped_after_wrongPassword :
    ∃ u w attempts, FailedOn ⟨.ofSecs 30, .ofSecs 15⟩ ⟨"ann", "a", 22⟩ .sudoPassword 0
        [.answer 0 .done] u ∧
      u.Adds (.answer 1 .admitted) w (.mk 1 ⟨"ann", "a", 22⟩ "ls" (.ofSecs 60)
        (.ends (.finished (.error (.elevationUnavailable "a" attempts))))) ∧
      ⟨.sudoPassword, .previouslyFailed⟩ ∈ attempts := by
  have hruns : ((idle ⟨.ofSecs 30, .ofSecs 15⟩).run wrongPassword).bind (fun s =>
      (s.step (.answer 0 (.replied (.ok ⟨"ann\n", "", 0⟩)))).bind fun t =>
        (t.step (.answer 0 .done)).bind fun u => (u.step (.answer 1 .admitted)).map fun w =>
          (t.journal[2]?, w.journal[0]?, t.journal.length - s.journal.length,
            w.journal.length - u.journal.length)) =
      some (some (0, .mk 0 ⟨"ann", "a", 22⟩ "id" (.ofSecs 60)
          (.hears (.run (.check .sudoPassword (some "pw") (.ofSecs 30))) (.ok ⟨"ann\n", "", 0⟩))),
        some (0, .mk 1 ⟨"ann", "a", 22⟩ "ls" (.ofSecs 60)
          (.ends (.finished (.error (.elevationUnavailable "a" [⟨.sudo, .unavailable⟩,
            ⟨.doas, .unavailable⟩, ⟨.sudoPassword, .previouslyFailed⟩,
            ⟨.doasPassword, .unavailable⟩, ⟨.su, .unavailable⟩]))))), 3, 2) := by rfl
  obtain ⟨s, hs, hruns⟩ := Option.bind_eq_some_iff.mp hruns
  obtain ⟨t, ht, hruns⟩ := Option.bind_eq_some_iff.mp hruns
  obtain ⟨u, hu, hruns⟩ := Option.bind_eq_some_iff.mp hruns
  obtain ⟨w, hw, hnotes⟩ := Option.map_eq_some_iff.mp hruns
  simp only [Prod.mk.injEq] at hnotes
  obtain ⟨hchecks, hends, htlength, hwlength⟩ := hnotes
  have hrun : (idle ⟨.ofSecs 30, .ofSecs 15⟩).Orderly (wrongPassword ++
      .answer 0 (.replied (.ok ⟨"ann\n", "", 0⟩)) :: [.answer 0 .done]) :=
    orderly_of_forall (by simp [wrongPassword, Event.Forgets])
  have hfailed : FailedOn ⟨.ofSecs 30, .ofSecs 15⟩ ⟨"ann", "a", 22⟩ .sudoPassword 0
      [.answer 0 .done] u := by
    refine ⟨_, _, s, t, _, hs, adds_of_getElem? ht hchecks (by omega), rfl, rfl, ?_,
      Option.bind_eq_some_iff.mpr ⟨u, hu, rfl⟩, by simp [Event.Forgets], hrun⟩
    exact ⟨_, _, _, rfl, .inr ⟨_, rfl, by decide⟩⟩
  have hadds := adds_of_getElem? hw hends (by omega)
  refine ⟨u, w, _, hfailed, hadds, ?_⟩
  have hskipped := (skipped_until_forgotten ⟨.ofSecs 30, .ofSecs 15⟩).2 _ _ _ _ _ hfailed _ _ _
    hadds rfl
  exact hskipped.2 _ _ rfl (by simp) (by simp)

end Traffic

end RemoteShell.Elevation
