import RemoteShell.Proofs.Elevation.Moves
import RemoteShell.Proofs.Elevation.Skipping

/-!
# Turns on a login

What one event does to what an engine knows of its logins, as long as nothing is forgotten.  Either
one call makes a move on its login, with all other calls on the login in the queue, or nothing is
noted and nothing changes but that a call comes to the queue or is given up.

## Main definitions

* `Engine.known`: the profile that the engine has for a login
* `Traffic.Move`, `Traffic.Rest`: a call makes a move, and no call does

## Main results

* `Engine.known_entered`, `Engine.known_finish`: what is known after a call has come, and at its end
* `Engine.known_follow`, `Engine.known_follow_of_ne`: what is known after a call has gone on
* `Traffic.moves_or_rests`: what an event does
-/

namespace RemoteShell.Elevation

variable {settings : ElevationSettings} {owner : CellId → Login} {k : Login} {n : CellId}
  {c x : Climb} {e : Engine} {d : Deed} {told : Hearing}

/-! ## What is known of a login -/

/-- **What an engine knows of a login**: its profile, if there is one. -/
def Engine.known (e : Engine) (k : Login) : Option Profile :=
  (e.profiles.table.get? k).bind fun n => (e.profiles.value? n).join

theorem Engine.known_of_filed (hk : e.profiles.table.get? k = some n) :
    e.known k = (e.profiles.value? n).join := by
  rw [known, hk]
  rfl

/-- What is known of a login is known as long as its cell stays and keeps its value. -/
theorem Engine.known_congr {e' : Engine}
    (htable : e'.profiles.table.get? k = e.profiles.table.get? k)
    (hvalue : ∀ n, e.profiles.table.get? k = some n →
      e'.profiles.value? n = e.profiles.value? n) : e'.known k = e.known k := by
  rw [known, known, htable]
  exact Option.bind_congr fun n hn => congrArg Option.join (hvalue n hn)

/-- A change of a cell that keeps its value. -/
theorem value?_modify {cs : Cells Login (Option Profile)}
    {f : Cell (Option Profile) → Cell (Option Profile)} (hf : ∀ y, (f y).value = y.value)
    (n m : CellId) : (cs.modify n f).value? m = cs.value? m := by
  rw [Cells.value?, Cells.value?, Cells.cell?_modify]
  split
  · cases cs.cell? m with
    | none => rfl
    | some y => exact congrArg some (hf y)
  · rfl

/-- A call that comes changes nothing of what is known. -/
theorem Engine.known_entered (hfiled : ∀ p ∈ e.profiles.table, p.2 < e.profiles.next) (id : CallId)
    (key k : Login) : (e.entered id key).known k = e.known k := by
  -- The lock and the handle of the call change no value.
  have hcell : (e.entered id key).known k =
      Engine.known { e with profiles := (e.profiles.withCell key none).2 } k := by
    refine known_congr rfl fun n _ => ?_
    exact (value?_modify (fun y => Cell.value_enter y id) _ n).trans
      (value?_modify (f := fun y => { y with handles := y.handles + 1 }) (fun _ => rfl) _ n)
  rw [hcell]
  unfold Cells.withCell
  split
  · rfl
  · next hnew =>
    by_cases hk : k = key
    · subst hk
      rw [known_of_filed (Assoc.get?_put_self ..), known, hnew]
      exact congrArg (fun y => (Option.map Cell.value y).join) (Assoc.get?_put_self ..)
    · refine known_congr (Assoc.get?_put_of_ne _ _ hk) fun n hn => ?_
      have hne : n ≠ e.profiles.next := Nat.ne_of_lt (hfiled _ (Assoc.mem_of_get? hn))
      exact congrArg (Option.map Cell.value) (Assoc.get?_put_of_ne _ _ hne)

/-- A call that gives its lock back changes no profile. -/
theorem Climb.value?_release (c : Climb) (e : Engine) (n : CellId) :
    (c.release e).profiles.value? n = e.profiles.value? n :=
  (value?_modify (f := fun y => { y with handles := y.handles - 1 }) (fun _ => rfl) _ n).trans
    (value?_modify (fun y => Cell.value_leave y c.caller) _ n)

/-- Neither does a call that ends. -/
theorem Climb.value?_finish (c : Climb) (x : Ending) (e : Engine) (n : CellId) :
    (c.finish x e).1.profiles.value? n = e.profiles.value? n := by
  obtain ⟨table, -, hfinish⟩ := c.finish_eq x e
  rw [hfinish]
  exact c.value?_release e n

/-- Nothing changes in what is known of a login when a call gives its lock back. -/
theorem Engine.known_release (c : Climb) (e : Engine) (k : Login) :
    (c.release e).known k = e.known k :=
  known_congr rfl fun n _ => c.value?_release e n

/-- Nothing is known of a login whose cell is taken out of the table. -/
theorem Engine.known_dropUndetected (e : Engine) (key k : Login) :
    (Climb.dropUndetected e key).known k = e.known k := by
  unfold Climb.dropUndetected Cells.retire
  split
  · next hgoes =>
    by_cases hk : k = key
    · subst hk
      obtain ⟨y, hy, hgo⟩ := (Option.any_eq_true _ _).mp hgoes
      have hvalue : y.value = none := by simp_all
      obtain ⟨n, hn, hy⟩ := Option.bind_eq_some_iff.mp hy
      rw [known, Assoc.get?_erase_self, known_of_filed hn, Cells.value?, hy, Option.map_some,
        hvalue]
      rfl
    · exact known_congr (Assoc.get?_erase_of_ne _ hk) fun _ _ => rfl
  · rfl

/-- Nor does it change what is known of any login. -/
theorem Engine.known_finish (c : Climb) (x : Ending) (e : Engine) (k : Login) :
    (c.finish x e).1.known k = e.known k := by
  cases x with
  | finished r => exact known_release c e k
  | crashed => exact known_release c e k
  | undetected f => exact (known_dropUndetected _ c.key k).trans (known_release c e k)

/-- A call that goes on changes nothing of what is known of logins with other cells. -/
theorem Engine.known_follow_of_ne (hcell : ∀ n, e.profiles.table.get? k = some n → n ≠ c.cell)
    (t : Talk Ending) :
    (c.follow t e).1.known k = e.known k := by
  induction t generalizing e with
  | done y => exact known_finish c y e k
  | ask q next ih =>
    rcases q.outward_or_keep with hq | ⟨p, rfl⟩
    · rw [c.follow_ask hq]
    · refine (ih () (e := { e with profiles := e.profiles.setValue c.cell (some p) }) hcell).trans
        (known_congr rfl fun n hn => ?_)
      rw [Cells.value?, Cells.setValue, Cells.cell?_modify, if_neg (hcell n hn)]
      rfl

/-- What a call leaves in its cell is what is known of its login. -/
theorem Engine.known_follow (hk : e.profiles.table.get? c.key = some c.cell) (t : Talk Ending) :
    (c.follow t e).1.known c.key = ((c.follow t e).1.profiles.value? c.cell).join := by
  induction t generalizing e with
  | done y =>
    change (c.finish y e).1.known c.key = ((c.finish y e).1.profiles.value? c.cell).join
    rw [known_finish, c.value?_finish]
    exact known_of_filed hk
  | ask q next ih =>
    rcases q.outward_or_keep with hq | ⟨p, rfl⟩
    · rw [c.follow_ask hq]
      exact known_of_filed hk
    · exact ih () hk

/-! ## What an event does -/

namespace Climb

/-- A call asks a question, and waits for the answer. -/
def Asks (c : Climb) (q : Query) : Prop := ∃ next, c.phase = .talking (.ask q next)

/-- A call that goes on ends or asks. -/
theorem follow_cases (c : Climb) (t : Talk Ending) (e : Engine) :
    (∃ r, (c.follow t e).2 = .ends r) ∨
      ∃ q next, (c.follow t e).2 = .waits { c with phase := .talking (.ask q next) } := by
  induction t generalizing e with
  | done y =>
    obtain ⟨table, -, hfinish⟩ := c.finish_eq y e
    exact .inl ⟨y.result, congrArg Prod.snd hfinish⟩
  | ask q next ih =>
    rcases q.outward_or_keep with hq | ⟨p, rfl⟩
    · exact .inr ⟨q, next, congrArg Prod.snd (c.follow_ask hq next e)⟩
    · exact ih () _

end Climb

namespace Traffic

variable {s t : Traffic} {ev : Event} {id : CallId}

/-- **A call makes a move** on its login: it has been told something, and comes to a deed.  All
other calls on the login queue. -/
structure Move (s : Traffic) (ev : Event) (t : Traffic) (c : Climb) (told : Hearing) (d : Deed) :
    Prop where
  fair : Fair c.key told (s.engine.known c.key) (t.engine.known c.key) d
  known : ∀ k, k ≠ c.key → t.engine.known k = s.engine.known k
  journal : t.journal = ((d :: .leaves (t.engine.known c.key) :: told.deeds).map c.note).map
    (fun y => (c.cell, y)) ++ s.journal
  others : ∀ i, i ≠ c.caller → t.calls.get? i = s.calls.get? i
  alone : ∀ i x, i ≠ c.caller → s.calls.get? i = some x → x.key = c.key → x.phase = .queued
  -- The call waits again if it asks, and is gone if it ends.
  waits : ∀ q, d = .asks q → ∃ x, t.calls.get? c.caller = some x ∧ x.key = c.key ∧ x.Asks q
  ends : ∀ r, d = .ends r → t.calls.get? c.caller = none
  -- It begins now, or its turn has come, or it hears what it has asked for.
  turn : told = none → s.calls.get? c.caller = none ∧ ev.Begins c.caller ∨
    s.calls.get? c.caller = some c ∧ c.phase = .queued
  answer : ∀ q a, told = some ⟨q, a⟩ → s.calls.get? c.caller = some c ∧ c.Asks q

/-- **No call makes a move**: at most a call comes to the queue, or one is given up. -/
structure Rest (s : Traffic) (ev : Event) (t : Traffic) : Prop where
  known : ∀ k, t.engine.known k = s.engine.known k
  journal : t.journal = s.journal
  stays : ∀ i x, s.calls.get? i = some x → t.calls.get? i = some x ∨
    ev = .abandon i ∧ t.calls.get? i = none
  comes : ∀ i x, t.calls.get? i = some x →
    s.calls.get? i = some x ∨ ev.Begins i ∧ x.phase = .queued

theorem get?_after_of_ne {told : List Deed} {z : Engine × Progress Climb Climb.Result} {i : CallId}
    (hi : i ≠ c.caller) : (s.after c told z).calls.get? i = s.calls.get? i := by
  obtain ⟨e, x | r⟩ := z
  · exact Assoc.get?_put_of_ne _ _ hi
  · exact Assoc.get?_erase_of_ne _ hi

theorem get?_after_waits {told : List Deed} {z : Engine × Progress Climb Climb.Result}
    (hz : z.2 = .waits x) : (s.after c told z).calls.get? c.caller = some x := by
  obtain ⟨e, y⟩ := z
  obtain rfl : y = .waits x := hz
  exact Assoc.get?_put_self ..

theorem get?_after_ends {told : List Deed} {z : Engine × Progress Climb Climb.Result}
    {r : Climb.Result} (hz : z.2 = .ends r) : (s.after c told z).calls.get? c.caller = none := by
  obtain ⟨e, y⟩ := z
  obtain rfl : y = .ends r := hz
  exact Assoc.get?_erase_self ..

/-- A call that has the lock of its login makes a fair move. -/
theorem Move.of_follow (ev : Event) (told : Hearing) {y : Cell (Option Profile)}
    {talk : Talk Ending}
    (hand : InHand Moves settings owner e (s.calls.erase c.caller) s.journal c y)
    (hg : s.Guarded) (hfiled : e.profiles.table.get? c.key = some c.cell)
    (hcell : ∀ n, s.engine.profiles.table.get? c.key = some n → n = c.cell)
    (hknown : ∀ k, e.known k = s.engine.known k)
    (hv : Moves c.key y.value (s.record c.cell))
    (ht : (s.after c told.deeds (c.follow talk e)).Sound Moves settings)
    (hturn : told = none → s.calls.get? c.caller = none ∧ ev.Begins c.caller ∨
      s.calls.get? c.caller = some c ∧ c.phase = .queued)
    (hanswer : ∀ q a, told = some ⟨q, a⟩ → s.calls.get? c.caller = some c ∧ c.Asks q) :
    ∃ d, s.Move ev (s.after c told.deeds (c.follow talk e)) c told d := by
  have hbefore : s.engine.known c.key = y.value := by
    rw [← hknown, Engine.known_of_filed hfiled, hand.value?_eq]
  have hafter : ((c.follow talk e).1.profiles.value? c.cell).join =
      (c.follow talk e).1.known c.key := (Engine.known_follow hfiled talk).symm
  obtain ⟨d, hd⟩ : ∃ d, Climb.comesTo (c.follow talk e).2 = some d := by
    rcases c.follow_cases talk e with ⟨r, hr⟩ | ⟨q, next, hq⟩
    · exact ⟨.ends r, by rw [hr]; rfl⟩
    · exact ⟨.asks q, by rw [hq]; rfl⟩
  have hnotes : notesOf c told.deeds (c.follow talk e) =
      (d :: .leaves ((c.follow talk e).1.known c.key) :: told.deeds).map c.note := by
    rw [notesOf, hd, hafter]
  have hrecord : (s.after c told.deeds (c.follow talk e)).record c.cell =
      (d :: .leaves ((c.follow talk e).1.known c.key) :: told.deeds).map c.note ++
        s.record c.cell := by
    rw [record, Traffic.after, hnotes, notesOn_append, notesOn_self]
    rfl
  have hfair : Fair c.key told y.value ((c.follow talk e).1.known c.key) d := by
    obtain ⟨k, hw⟩ := ht.exists_kept (n := c.cell) (y := c.note d)
      (by rw [hrecord]; exact List.mem_append_left _ List.mem_cons_self)
    change Moves k ((c.follow talk e).1.profiles.value? c.cell).join _ at hw
    rw [hrecord, hafter] at hw
    obtain rfl : c.key = k := hw.keyed (c.note d) List.mem_cons_self
    cases told with
    | none => exact hv.fair_of_turn hw
    | some x => exact hv.fair_of_answer hw
  refine ⟨d, hbefore ▸ hfair, fun k hk => ?_, congrArg (List.map _ · ++ _) hnotes,
    fun i hi => get?_after_of_ne hi, fun i x hi hx hkey => ?_, ?_, ?_, hturn, hanswer⟩
  · refine (Engine.known_follow_of_ne (fun n hn hnc => hk ?_) talk).trans (hknown k)
    have howner := (hand.rest.filed _ (Assoc.mem_of_get? hn)).2
    rw [← show owner n = k from howner, hnc, hand.housed.2]
  · have hx' : (s.calls.erase c.caller).get? i = some x :=
      (Assoc.get?_erase_of_ne _ hi).trans hx
    exact hand.queued (Assoc.mem_of_get? hx') (hcell x.cell (hkey ▸ hg.filed hx))
  · rintro q rfl
    rcases c.follow_cases talk e with ⟨r, hr⟩ | ⟨q', next, hq⟩
    · rw [hr] at hd
      cases hd
    · rw [hq] at hd
      obtain rfl := Deed.asks.inj (Option.some.inj hd)
      exact ⟨_, get?_after_waits hq, rfl, next, rfl⟩
  · rintro r rfl
    rcases c.follow_cases talk e with ⟨r, hr⟩ | ⟨q, next, hq⟩
    · exact get?_after_ends hr
    · rw [hq] at hd
      cases hd

/-- A call that is under way and has the lock of its login makes a fair move. -/
theorem Move.of_call (ev : Event) (told : Hearing) {y : Cell (Option Profile)} {talk : Talk Ending}
    (hs : Consistent Moves settings owner none s.engine s.calls s.journal) (hg : s.Guarded)
    (call : s.calls.get? c.caller = some c) (hy : s.engine.profiles.cell? c.cell = some y)
    (hholds : y.holder = some c.caller)
    (ht : (s.after c told.deeds (c.follow talk s.engine)).Sound Moves settings)
    (hturn : told = none → c.phase = .queued) (hanswer : ∀ q a, told = some ⟨q, a⟩ → c.Asks q) :
    ∃ d, s.Move ev (s.after c told.deeds (c.follow talk s.engine)) c told d := by
  have hhoused := hs.housed _ (Assoc.mem_of_get? call)
  have hhand : InHand Moves settings owner s.engine (s.calls.erase c.caller) s.journal c y :=
    ⟨(hs.erase c.caller).take c.cell, ne_of_mem_erase, hhoused, hy, hholds⟩
  exact Move.of_follow ev told hhand hg (hg.filed call)
    (fun n hn => Option.some.inj (hn.symm.trans (hg.filed call))) (fun _ => rfl)
    (hhoused.2 ▸ hs.kept c.cell y (Option.some_ne_none _).symm hy) ht
    (fun h => .inr ⟨call, hturn h⟩) fun q a ha => ⟨call, hanswer q a ha⟩

/-- **What an event does**, unless profiles are forgotten: a call makes a move, or none does. -/
theorem moves_or_rests (hs : s.Sound Moves settings) (hg : s.Guarded)
    (ht : t.Sound Moves settings) (hstep : s.step ev = some t)
    (hclear : ∀ host, ev ≠ .clear host) :
    (∃ c told d, s.Move ev t c told d) ∨ s.Rest ev t := by
  have ⟨owner, hsound⟩ := hs
  have hfiled : ∀ p ∈ s.engine.profiles.table, p.2 < s.engine.profiles.next :=
    fun p hp => (hsound.filed p hp).1
  cases happens hstep with
  | @queues id key command timeout on new =>
    refine .inr ⟨Engine.known_entered hfiled id key, rfl, fun i x hx => .inl ?_, fun i x hx => ?_⟩
    · refine (get?_after_of_ne ?_).trans hx
      rintro rfl
      rw [new] at hx
      cases hx
    · rcases get?_after hx with ⟨-, hx⟩ | ⟨rfl, hwaits⟩
      · exact .inl hx
      · obtain rfl := Progress.waits.inj hwaits
        exact .inr ⟨rfl, rfl⟩
  | @enters id key command timeout on new turn =>
    obtain ⟨owner', hentered, hlt, howner⟩ := hsound.entered (fun _ => .start) id key
    obtain ⟨y, hy, hholds⟩ := Cells.admits_iff.mp turn
    have hhand : InHand Moves settings owner' (s.engine.entered id key) (s.calls.erase id)
        s.journal (.arrive id key command timeout on s.engine) y :=
      ⟨(hentered.erase id).take _, ne_of_mem_erase, ⟨hlt, howner⟩, hy, hholds⟩
    have hv := hentered.kept _ y (Option.some_ne_none _).symm hy
    rw [show owner' (Climb.arrive id key command timeout on s.engine).cell = key from howner] at hv
    obtain ⟨d, hd⟩ := Move.of_follow (.call id key command timeout on) none hhand hg
      (Cells.Guarded.withCell hg key none).2 (fun n hn => (value?_entered id key hn).1.symm)
      (Engine.known_entered hfiled id key) hv ht (fun _ => .inl ⟨new, rfl⟩)
      (by rintro q a ⟨⟩)
    exact .inl ⟨_, none, d, hd⟩
  | @begins id c call turn phase =>
    obtain rfl := hs.caller_eq call
    obtain ⟨y, hy, hholds⟩ := Cells.admits_iff.mp turn
    obtain ⟨d, hd⟩ := Move.of_call (.answer c.caller .admitted) none hsound hg call hy hholds ht
      (fun _ => phase) (by rintro q a ⟨⟩)
    exact .inl ⟨c, none, d, hd⟩
  | @hears id a c q next b call phase takes =>
    obtain rfl := hs.caller_eq call
    have hfits := hsound.fits _ (Assoc.mem_of_get? call)
    unfold Climb.Fits at hfits
    rw [phase] at hfits
    obtain ⟨-, y, hy, hholds, -⟩ := hfits
    obtain ⟨d, hd⟩ := Move.of_call (.answer c.caller a) (some ⟨q, b⟩) hsound hg call hy hholds ht
      (by rintro ⟨⟩) fun q' b' hb => by
        cases hb
        exact ⟨next, phase⟩
    exact .inl ⟨c, _, d, hd⟩
  | @abandons id c call =>
    refine .inr ⟨Engine.known_release c s.engine, rfl, fun i x hx => ?_, fun i x hx => ?_⟩
    · by_cases hi : i = id
      · subst hi
        exact .inr ⟨rfl, Assoc.get?_erase_self ..⟩
      · exact .inl ((Assoc.get?_erase_of_ne _ hi).trans hx)
    · by_cases hi : i = id
      · subst hi
        exact absurd ((Assoc.get?_erase_self ..).symm.trans hx) (Option.some_ne_none x).symm
      · exact .inl ((Assoc.get?_erase_of_ne _ hi).symm.trans hx)
  | clears host => exact absurd rfl (hclear host)

end Traffic

end RemoteShell.Elevation
