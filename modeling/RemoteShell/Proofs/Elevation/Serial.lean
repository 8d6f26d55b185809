import Mathlib.Data.List.Induction
import RemoteShell.Proofs.Elevation.Turns

/-!
# Elevation on one login is serial

As long as no profile is forgotten, calls on one login do what they do one after another, whatever
calls come, fail or are given up: while a call asks and hears, all others on its login queue, and
its notes stand together.  A login is detected again only after a detection that failed or was given
up, and the operator is asked for the password of a method again only for a reason: nothing was
said, the check broke off, the call was given up, or a tool rejected the password later on.

A detection that has begun is under way until it has come to a profile, and a password that has been
asked for is on its way until something is decided about the method.  Both are said of one event,
and then of many.

## Main definitions

* `Traffic.Follows`: a note, the events since, and a later note
* `Traffic.Once`: some event of a run
* `Traffic.Waits`: a call on a login waits for an answer
* `Traffic.Probing`, `Traffic.Undetected`: a detection is under way, and comes to nothing
* `Traffic.Obtaining`, `Traffic.Unobtained`: a password is being obtained, and is not to be had

## Main results

* `Traffic.Move.waiting`: a call that waits goes on itself, or the move is on another login
* `Traffic.not_interleaved`: the notes of one call stand together
* `Traffic.Probing.step`, `Traffic.Obtaining.step`: what one event does
* `Traffic.serialized`: what all this comes to
-/

namespace RemoteShell.Elevation

variable {settings : ElevationSettings} {k : Login} {m : Method} {c x : Climb} {d : Deed}
  {told : Hearing}

/-! ## Deeds -/

namespace Deed

/-- A detection begins: the first probe is sent. -/
def StartsDetection (d : Deed) : Prop :=
  ∃ limit, d = .asks (.run (.probe Probe.user.command limit))

/-- The detection fails: a probe is answered with an error other than a time limit. -/
def FailsDetection (d : Deed) : Prop :=
  ∃ command limit f, d = .hears (.run (.probe command limit)) (.error f) ∧
    f.kind ≠ .commandTimeout

/-- The operator is prompted for the password of a method. -/
def Prompts (k : Login) (m : Method) (d : Deed) : Prop :=
  ∃ user, d = .asks (.prompt (promptText k m user))

/-- The operator says nothing: the prompt is declined or answered with nothing. -/
def Declines (k : Login) (m : Method) (d : Deed) : Prop :=
  ∃ user a, d = .hears (.prompt (promptText k m user)) a ∧ (a = none ∨ a = some "")

/-- The check of a password breaks off. -/
def ChecksInVain (m : Method) (d : Deed) : Prop :=
  ∃ s limit a, d = .hears (.run (.check m (some s) limit)) a ∧ BreaksOff m a

end Deed

/-- A question by which a login is detected. -/
def Query.Detects (q : Query) : Prop := ∃ command limit, q = .run (.probe command limit)

/-- A question by which a password of a method is got and checked. -/
def Query.Obtains (k : Login) (m : Method) (q : Query) : Prop :=
  (∃ user, q = .prompt (promptText k m user)) ∨ ∃ s limit, q = .run (.check m (some s) limit)

namespace Traffic

variable {s t u w : Traffic} {ev g : Event} {es before since : List Event} {i : CallId} {y z : Note}
  {q : Query}

/-- **Nothing is forgotten.** -/
def Calm (es : List Event) : Prop := ∀ ev ∈ es, ∀ host, ev ≠ .clear host

/-- **A note, and a later one** in traffic on which nothing is forgotten: the first one is made when
the traffic comes to `t`, these events happen, and an event on `u` makes the other one. -/
def Follows (settings : ElevationSettings) (y : Note) (t : Traffic) (since : List Event)
    (u : Traffic) (g : Event) (w : Traffic) (z : Note) : Prop :=
  ∃ es ev s, (idle settings).run es = some s ∧ s.Adds ev t y ∧ t.run since = some u ∧
    u.Adds g w z ∧ Calm (es ++ ev :: since ++ [g])

/-- **Some event of a run** finds the traffic so, after others, and leaves it so. -/
def Once (s : Traffic) (es : List Event) (P : List Event → Traffic → Event → Traffic → Prop) :
    Prop :=
  ∃ before g after u w, es = before ++ g :: after ∧ s.run before = some u ∧ u.step g = some w ∧
    P before u g w

/-- **A call on a login waits** for the answer to a question. -/
def Waits (s : Traffic) (i : CallId) (k : Login) (Q : Query → Prop) : Prop :=
  ∃ c q, s.calls.get? i = some c ∧ c.key = k ∧ c.Asks q ∧ Q q

/-- Traffic on which every call makes fair moves, and on which nothing was forgotten. -/
def Regular (settings : ElevationSettings) (s : Traffic) : Prop :=
  s.Sound Moves settings ∧ s.Guarded

/-! ## Runs -/

theorem run_append (s : Traffic) (es since : List Event) :
    s.run (es ++ since) = (s.run es).bind fun t => t.run since := by
  induction es generalizing s with
  | nil => rfl
  | cons ev es ih =>
    rw [List.cons_append, run, run, Option.bind_assoc]
    exact Option.bind_congr fun t _ => ih t

theorem Regular.step (h : s.Regular settings) (hcalm : ∀ host, ev ≠ .clear host)
    (hstep : s.step ev = some t) : t.Regular settings := by
  refine ⟨h.1.step (fun _ => .start) (Moves.fulfils_ascend settings) hstep, ?_⟩
  refine h.2.step (fun _ _ hc => h.1.caller_eq hc) (fun p _ => ?_) hstep
  cases ev with
  | clear host => exact absurd rfl (hcalm host)
  | _ => exact id

theorem Regular.idle (settings : ElevationSettings) : (idle settings).Regular settings :=
  ⟨Sound.idle, Guarded.idle settings⟩

/-- What an event does on such traffic. -/
theorem Regular.moves_or_rests (h : s.Regular settings) (hcalm : ∀ host, ev ≠ .clear host)
    (hstep : s.step ev = some t) : (∃ c told d, s.Move ev t c told d) ∨ s.Rest ev t :=
  Traffic.moves_or_rests h.1 h.2 (h.step hcalm hstep).1 hstep hcalm

theorem Once.append {P : List Event → Traffic → Event → Traffic → Prop} (h : s.Once es P)
    (since : List Event) : s.Once (es ++ since) P := by
  obtain ⟨before, g, after, u, w, rfl, hrest⟩ := h
  exact ⟨before, g, after ++ since, u, w, by simp, hrest⟩

/-- **What events keep holds after a run**, unless something comes in between. -/
theorem Regular.run {J : List Event → Traffic → Prop}
    {P : List Event → Traffic → Event → Traffic → Prop}
    (hs : s.Regular settings) (hJ : J [] s) (hcalm : Calm es) (hrun : s.run es = some t)
    (hstep : ∀ before g u w, g ∈ es → u.Regular settings → J before u → u.step g = some w →
      J (before ++ [g]) w ∨ P before u g w) :
    t.Regular settings ∧ (J es t ∨ s.Once es P) := by
  induction es using List.reverseRecOn generalizing t with
  | nil =>
    obtain rfl := Option.some.inj hrun
    exact ⟨hs, .inl hJ⟩
  | append_singleton es g ih =>
    rw [run_append] at hrun
    obtain ⟨u, hu, hrun⟩ := Option.bind_eq_some_iff.mp hrun
    obtain ⟨w, hw, hwt⟩ := Option.bind_eq_some_iff.mp hrun
    obtain rfl := Option.some.inj hwt
    have hg : g ∈ es ++ [g] := List.mem_append_right _ List.mem_cons_self
    obtain ⟨hregular, hu'⟩ := ih (fun ev hev => hcalm ev (List.mem_append_left _ hev)) hu
      fun before g' u' w' hg' => hstep before g' u' w' (List.mem_append_left _ hg')
    refine ⟨hregular.step (hcalm g hg) hw, ?_⟩
    rcases hu' with hu' | honce
    · refine (hstep es g u w hg hregular hu' hw).imp_right fun hP => ?_
      exact ⟨es, g, [], u, w, rfl, hu, hw, hP⟩
    · exact .inr (honce.append [g])

/-- What every event keeps holds after a run. -/
theorem Regular.keeps (hs : s.Regular settings) (J : Traffic → Prop) (hJ : J s) (hcalm : Calm es)
    (hrun : s.run es = some t)
    (hstep : ∀ u g w, g ∈ es → u.Regular settings → J u → u.step g = some w → J w) :
    t.Regular settings ∧ J t := by
  obtain ⟨ht, hJ | ⟨_, _, _, _, _, _, _, _, hnever⟩⟩ :=
    hs.run (J := fun _ => J) (P := fun _ _ _ _ => False) hJ hcalm hrun
      fun _ g u w hg hu hJ hw => .inl (hstep u g w hg hu hJ hw)
  · exact ⟨ht, hJ⟩
  · exact hnever.elim

/-! ## One move -/

namespace Move

/-- What a call has been told is noted. -/
theorem adds (hm : s.Move ev t c told d) (hstep : s.step ev = some t) {d' : Deed}
    (hd : d' ∈ told.deeds) : s.Adds ev t (c.note d') := by
  have hmem : d' ∈ d :: .leaves (t.engine.known c.key) :: told.deeds :=
    List.mem_cons_of_mem _ (List.mem_cons_of_mem _ hd)
  exact ⟨hstep, c.cell, _, hm.journal,
    List.mem_map.mpr ⟨_, List.mem_map.mpr ⟨d', hmem, rfl⟩, rfl⟩⟩

/-- All that is noted is noted of the call that makes its move. -/
theorem of_adds (hm : s.Move ev t c told d) (hy : s.Adds ev t y) :
    y.key = c.key ∧ y.caller = c.caller ∧ ∀ q, y.deed = .asks q → d = .asks q := by
  obtain ⟨-, n, new, hnew, hmem⟩ := hy
  obtain rfl := List.append_cancel_right (hnew.symm.trans hm.journal)
  obtain ⟨x, hx, hxy⟩ := List.mem_map.mp hmem
  obtain ⟨d', hd', rfl⟩ := List.mem_map.mp hx
  obtain ⟨-, rfl⟩ := Prod.mk.inj hxy
  refine ⟨rfl, rfl, ?_⟩
  rintro q (rfl : d' = .asks q)
  rcases List.mem_cons.mp hd' with rfl | hd'
  · rfl
  rcases List.mem_cons.mp hd' with hd' | hd'
  · cases hd'
  · obtain ⟨b, -, hb⟩ := List.mem_map.mp hd'
    cases hb

/-- **A call that waits goes on itself, or the move is on another login.** -/
theorem waiting (hm : s.Move ev t c told d) (hx : s.calls.get? i = some x) {q : Query}
    (hq : x.Asks q) : (c.caller ≠ i ∧ c.key ≠ x.key ∧ t.calls.get? i = some x) ∨
      c.caller = i ∧ c = x ∧ ∃ a, told = some ⟨q, a⟩ := by
  obtain ⟨next, hphase⟩ := hq
  by_cases hi : c.caller = i
  · subst hi
    refine .inr ⟨rfl, ?_⟩
    cases told with
    | none =>
      rcases hm.turn rfl with ⟨hnone, -⟩ | ⟨hc, hqueued⟩
      · rw [hnone] at hx
        cases hx
      · obtain rfl := Option.some.inj (hc.symm.trans hx)
        rw [hqueued] at hphase
        cases hphase
    | some b =>
      obtain ⟨hc, next', hphase'⟩ := hm.answer b.1 b.2 rfl
      obtain rfl := Option.some.inj (hc.symm.trans hx)
      rw [hphase'] at hphase
      obtain ⟨rfl, -⟩ := Dialogue.ask.inj (Climb.Phase.talking.inj hphase)
      exact ⟨rfl, b.2, rfl⟩
  · refine .inl ⟨hi, fun hkey => ?_, (hm.others i (Ne.symm hi)).trans hx⟩
    have hqueued := hm.alone i x (Ne.symm hi) hx hkey.symm
    rw [hqueued] at hphase
    cases hphase

/-- A call that asks waits for the answer. -/
theorem waits_of_asks (hm : s.Move ev t c told (.asks q)) {Q : Query → Prop} (hQ : Q q) :
    t.Waits c.caller c.key Q := by
  obtain ⟨x, hx, hkey, hasks⟩ := hm.waits q rfl
  exact ⟨x, q, hx, hkey, hasks, hQ⟩

/-- **What comes of a prompt, and of the check of a password**: the check after the prompt, or a
decision on the method, or nothing. -/
theorem obtains {a : q.Answer} (hm : s.Move ev t c (some ⟨q, a⟩) d) (hstep : s.step ev = some t)
    (hq : q.Obtains c.key m) :
    (∃ said limit, d = .asks (.run (.check m (some said) limit))) ∨
      Decided m (t.engine.known c.key) ∨
        ∃ z, s.Adds ev t z ∧ z.caller = c.caller ∧ z.key = c.key ∧
          (z.deed.Declines c.key m ∨ z.deed.ChecksInVain m) := by
  have hadds : s.Adds ev t (c.note (.hears q a)) := hm.adds hstep (List.mem_singleton_self _)
  rcases hq with ⟨user, rfl⟩ | ⟨said, limit, rfl⟩
  · by_cases hsaid : a = none ∨ a = some ""
    · exact .inr (.inr ⟨_, hadds, rfl, rfl, .inl ⟨user, a, rfl, hsaid⟩⟩)
    · obtain ⟨hnone, hempty⟩ := not_or.mp hsaid
      obtain ⟨said, rfl⟩ := Option.ne_none_iff_exists'.mp hnone
      exact .inl ⟨said, hm.fair.checks m said
        ⟨fun h => hempty (congrArg some h), _, user, rfl, rfl⟩⟩
  · refine .inr ((hm.fair.judged m said limit a rfl).imp_right fun hbreaks => ?_)
    exact ⟨_, hadds, rfl, rfl, .inr ⟨said, limit, a, rfl, hbreaks⟩⟩

end Move

/-- Without a move nothing is noted. -/
theorem Rest.not_adds (hr : s.Rest ev t) : ¬ s.Adds ev t y := by
  rintro ⟨-, n, new, hnew, hmem⟩
  have hnil : new = [] :=
    List.append_cancel_right (hnew.symm.trans (hr.journal.trans (List.nil_append _).symm))
  rw [hnil] at hmem
  cases hmem

/-- A number that is taken does not begin. -/
theorem not_begins (hstep : s.step ev = some t) (hx : s.calls.get? i = some x) :
    ¬ ev.Begins i := by
  cases ev with
  | call id key command timeout on =>
    rintro rfl
    rw [Traffic.step, if_pos (by rw [Assoc.has, hx]; rfl)] at hstep
    cases hstep
  | _ => exact id

/-! ## One call after another -/

/-- **Of the calls on a login only one is past the lock.** -/
theorem Regular.eq_of_inside {j : CallId} {x' : Climb} (hs : s.Regular settings)
    (hx : s.calls.get? i = some x) (hx' : s.calls.get? j = some x') (hkey : x.key = x'.key)
    (hq : x.phase ≠ .queued) (hq' : x'.phase ≠ .queued) : i = j := by
  have hcell : x.cell = x'.cell := by
    have hfiled := hs.2.filed hx
    rw [hkey, hs.2.filed hx'] at hfiled
    exact (Option.some.inj hfiled).symm
  exact hs.1.eq_of_talking hx hx' hcell hq hq'

/-- **While a call makes a note, all others on its login queue.** -/
theorem others_queue (hs : s.Regular settings) (hcalm : ∀ host, ev ≠ .clear host)
    (hy : s.Adds ev t y) (hi : i ≠ y.caller)
    (hx : s.calls.get? i = some x ∨ t.calls.get? i = some x) (hkey : x.key = y.key) :
    x.phase = .queued := by
  rcases hs.moves_or_rests hcalm hy.1 with ⟨c, told, d, hm⟩ | hr
  · obtain ⟨hykey, hycaller, -⟩ := hm.of_adds hy
    have hne : i ≠ c.caller := hycaller ▸ hi
    rw [hm.others i hne, or_self] at hx
    exact hm.alone i x hne hx (hkey.trans hykey)
  · exact absurd hy hr.not_adds

/-- A call that has made a note waits, or is over. -/
theorem waits_of_adds (hs : s.Regular settings) (hcalm : ∀ host, ev ≠ .clear host)
    (hy : s.Adds ev t y) :
    t.calls.get? y.caller = none ∨ t.Waits y.caller y.key fun _ => True := by
  rcases hs.moves_or_rests hcalm hy.1 with ⟨c, told, d, hm⟩ | hr
  · obtain ⟨hykey, hycaller, -⟩ := hm.of_adds hy
    rw [hykey, hycaller]
    rcases hm.fair.comes with ⟨q, rfl⟩ | ⟨r, rfl⟩
    · exact .inr (hm.waits_of_asks trivial)
    · exact .inl (hm.ends r rfl)
  · exact absurd hy hr.not_adds

/-- A call that has asked waits for the answer. -/
theorem waits_of_asked (hs : s.Regular settings) (hcalm : ∀ host, ev ≠ .clear host)
    (hy : s.Adds ev t y) (hdeed : y.deed = .asks q) {Q : Query → Prop} (hQ : Q q) :
    t.Waits y.caller y.key Q := by
  rcases hs.moves_or_rests hcalm hy.1 with ⟨c, told, d, hm⟩ | hr
  · obtain ⟨hykey, hycaller, hasks⟩ := hm.of_adds hy
    obtain rfl := hasks q hdeed
    rw [hykey, hycaller]
    exact hm.waits_of_asks hQ
  · exact absurd hy hr.not_adds

/-- A number that is free stays free until a call begins under it. -/
theorem free_step (hs : s.Regular settings) (hcalm : ∀ host, ev ≠ .clear host)
    (hstep : s.step ev = some t) (hno : ¬ ev.Begins i) (hfree : s.calls.get? i = none) :
    t.calls.get? i = none ∧ ∀ y, s.Adds ev t y → y.caller ≠ i := by
  rcases hs.moves_or_rests hcalm hstep with ⟨c, told, d, hm⟩ | hr
  · have hne : c.caller ≠ i := by
      rintro rfl
      cases told with
      | none =>
        rcases hm.turn rfl with ⟨-, hbegins⟩ | ⟨hc, -⟩
        · exact hno hbegins
        · rw [hfree] at hc
          cases hc
      | some b =>
        have hc := (hm.answer b.1 b.2 rfl).1
        rw [hfree] at hc
        cases hc
    exact ⟨(hm.others i hne.symm).trans hfree, fun y hy => (hm.of_adds hy).2.1 ▸ hne⟩
  · refine ⟨Option.eq_none_iff_forall_ne_some.mpr fun x hx => ?_, fun y hy => absurd hy hr.not_adds⟩
    rcases hr.comes i x hx with hx | ⟨hbegins, -⟩
    · rw [hfree] at hx
      cases hx
    · exact hno hbegins

/-- A call that waits goes on waiting or is over, and nobody else makes a note on its login. -/
theorem Waits.step (hw : s.Waits i k fun _ => True) (hs : s.Regular settings)
    (hcalm : ∀ host, ev ≠ .clear host) (hstep : s.step ev = some t) :
    (t.calls.get? i = none ∨ t.Waits i k fun _ => True) ∧
      ∀ y, s.Adds ev t y → y.key = k → y.caller = i := by
  obtain ⟨x, q, hx, rfl, hq, -⟩ := hw
  rcases hs.moves_or_rests hcalm hstep with ⟨c, told, d, hm⟩ | hr
  · rcases hm.waiting hx hq with ⟨-, hne, hstays⟩ | ⟨rfl, rfl, a, rfl⟩
    · refine ⟨.inr ⟨x, q, hstays, rfl, hq, trivial⟩, fun y hy hkey => absurd ?_ hne⟩
      exact (hm.of_adds hy).1.symm.trans hkey
    · refine ⟨?_, fun y hy _ => (hm.of_adds hy).2.1⟩
      rcases hm.fair.comes with ⟨q', rfl⟩ | ⟨r, rfl⟩
      · exact .inr (hm.waits_of_asks trivial)
      · exact .inl (hm.ends r rfl)
  · refine ⟨?_, fun y hy => absurd hy hr.not_adds⟩
    rcases hr.stays i x hx with hstays | ⟨-, hgone⟩
    · exact .inr ⟨x, q, hstays, rfl, hq, trivial⟩
    · exact .inl hgone

/-- **Notes of one call on a login stand together**: between two of them no other call makes one,
unless another call has begun under the number. -/
theorem not_interleaved (hs : s.Regular settings) (hcalm : Calm (ev :: since ++ [g]))
    (hy : s.Adds ev t y) (hrun : t.run since = some u) (hz : u.Adds g w z)
    (hcaller : z.caller = y.caller) (hno : ∀ b ∈ since ++ [g], ¬ b.Begins y.caller) :
    ¬ t.Once since fun _ u₁ b u₂ => ∃ x, u₁.Adds b u₂ x ∧ x.key = y.key ∧ x.caller ≠ y.caller := by
  rintro ⟨before, b, after, u₁, u₂, rfl, hbefore, hu₂, x, hx, hxkey, hxcaller⟩
  rw [run_append, hbefore, Option.bind_some, run, hu₂, Option.bind_some] at hrun
  have hev : ∀ host, ev ≠ .clear host := hcalm ev (by simp)
  have hb : ∀ host, b ≠ .clear host := hcalm b (by simp)
  have hg : ∀ host, g ≠ .clear host := hcalm g (by simp)
  -- The first call still waits when the other one makes its note, or it is over.
  obtain ⟨hu₁, hfirst⟩ := (hs.step hev hy.1).keeps
    (fun u => u.calls.get? y.caller = none ∨ u.Waits y.caller y.key fun _ => True)
    (waits_of_adds hs hev hy) (fun e he => hcalm e (by simp [he])) hbefore
    fun v e v' he hv hJ hstep => by
      rcases hJ with hfree | hwaits
      · exact .inl (free_step hv (hcalm e (by simp [he])) hstep (hno e (by simp [he])) hfree).1
      · exact (hwaits.step hv (hcalm e (by simp [he])) hstep).1
  rcases hfirst with hfree | hwaits
  · -- Then it stays so, and makes no note at the end.
    have hfree := (free_step hu₁ hb hu₂ (hno b (by simp)) hfree).1
    obtain ⟨hu, hlast⟩ := (hu₁.step hb hu₂).keeps (fun u => u.calls.get? y.caller = none) hfree
      (fun e he => hcalm e (by simp [he])) hrun fun v e v' he hv hJ hstep =>
        (free_step hv (hcalm e (by simp [he])) hstep (hno e (by simp [he])) hJ).1
    exact (free_step hu hg hz.1 (hno g (by simp)) hlast).2 z hz hcaller
  · exact hxcaller ((hwaits.step hu₁ hb hu₂).2 x hx hxkey)

/-! ## Detections -/

/-- **A detection is under way**: the call still waits for the answer to a probe, or there is a
profile. -/
def Probing (k : Login) (i : CallId) (before : List Event) (u : Traffic) : Prop :=
  (u.Waits i k Query.Detects ∧ ∀ g ∈ before, ¬ g.Begins i) ∨ (u.engine.known k).isSome

/-- **A detection comes to nothing**: its call is given up meanwhile, or a probe is answered with an
error other than a time limit. -/
def Undetected (k : Login) (i : CallId) (before : List Event) (u : Traffic) (g : Event)
    (w : Traffic) : Prop :=
  (∀ ev ∈ before, ¬ ev.Begins i) ∧
    (u.Waits i k Query.Detects ∧ g = .abandon i ∨
      ∃ z, u.Adds g w z ∧ z.caller = i ∧ z.key = k ∧ z.deed.FailsDetection)

/-- A call that waits is numbered before and after an event as it was. -/
theorem Waits.not_begins {Q : Query → Prop} (hw : s.Waits i k Q) (hstep : s.step ev = some t)
    (hno : ∀ g ∈ before, ¬ g.Begins i) : ∀ g ∈ before ++ [ev], ¬ g.Begins i := by
  obtain ⟨x, q, hx, -⟩ := hw
  intro g hg
  rcases List.mem_append.mp hg with hg | hg
  · exact hno g hg
  · obtain rfl := List.mem_singleton.mp hg
    exact Traffic.not_begins hstep hx

/-- **One event in a detection.** -/
theorem Probing.step (h : Probing k i before s) (hs : s.Regular settings)
    (hcalm : ∀ host, ev ≠ .clear host) (hstep : s.step ev = some t) :
    Probing k i (before ++ [ev]) t ∨ Undetected k i before s ev t := by
  have hevent := hs.moves_or_rests hcalm hstep
  rcases h with ⟨hwaits, hno⟩ | hknown
  · have hno' := hwaits.not_begins hstep hno
    obtain ⟨x, q, hx, rfl, hq, hdetects⟩ := hwaits
    rcases hevent with ⟨c, told, d, hm⟩ | hr
    · rcases hm.waiting hx hq with ⟨-, -, hstays⟩ | ⟨rfl, rfl, a, rfl⟩
      · exact .inl (.inl ⟨⟨x, q, hstays, rfl, hq, hdetects⟩, hno'⟩)
      · obtain ⟨command, limit, rfl⟩ := hdetects
        cases hw : t.engine.known c.key with
        | some p => exact .inl (.inr (by rw [hw]; rfl))
        | none =>
          rcases hm.fair.detects command limit a rfl hw with ⟨command', limit', rfl⟩ | ⟨f, rfl, hf⟩
          · exact .inl (.inl ⟨hm.waits_of_asks ⟨command', limit', rfl⟩, hno'⟩)
          · have hadds := hm.adds hstep (List.mem_singleton_self _)
            exact .inr ⟨hno, .inr ⟨_, hadds, rfl, rfl, command, limit, f, rfl, hf⟩⟩
    · rcases hr.stays i x hx with hstays | ⟨hgone, -⟩
      · exact .inl (.inl ⟨⟨x, q, hstays, rfl, hq, hdetects⟩, hno'⟩)
      · exact .inr ⟨hno, .inl ⟨⟨x, q, hx, rfl, hq, hdetects⟩, hgone⟩⟩
  · refine .inl (.inr ?_)
    rcases hevent with ⟨c, told, d, hm⟩ | hr
    · by_cases hk : k = c.key
      · subst hk
        exact hm.fair.known hknown
      · rwa [hm.known k hk]
    · rwa [hr.known k]

/-- While a detection is under way, no other one begins on the login. -/
theorem Probing.not_starts (h : Probing k i before s) (hs : s.Regular settings)
    (hcalm : ∀ host, ev ≠ .clear host) (hz : s.Adds ev t z) (hkey : z.key = k) :
    ¬ z.deed.StartsDetection := by
  rintro ⟨limit, hdeed⟩
  rcases hs.moves_or_rests hcalm hz.1 with ⟨c, told, d, hm⟩ | hr
  · obtain ⟨hzkey, -, hasks⟩ := hm.of_adds hz
    obtain rfl := hasks _ hdeed
    obtain rfl := hm.fair.starts limit rfl
    have hnone := hm.fair.probes _ limit rfl
    rcases h with ⟨⟨x, q, hx, hxkey, hq, -⟩, -⟩ | hknown
    · rcases hm.waiting hx hq with ⟨-, hne, -⟩ | ⟨-, -, a, ha⟩
      · exact hne ((hzkey.symm.trans hkey).trans hxkey.symm)
      · cases ha
    · have hknown' := hm.fair.known (hzkey ▸ hkey ▸ hknown)
      rw [hnone] at hknown'
      cases hknown'
  · exact hr.not_adds hz

/-! ## Passwords -/

/-- **A password is being obtained**: the call still waits for the operator or for the check, or the
method is decided on. -/
def Obtaining (k : Login) (m : Method) (i : CallId) (before : List Event) (u : Traffic) : Prop :=
  (u.Waits i k (Query.Obtains k m) ∧ ∀ g ∈ before, ¬ g.Begins i) ∨ Decided m (u.engine.known k)

/-- **A password is not obtained**: the call is given up meanwhile, the operator says nothing, or
the check breaks off; or **it is lost**, because a tool rejects it. -/
def Unobtained (k : Login) (m : Method) (i : CallId) (before : List Event) (u : Traffic) (g : Event)
    (w : Traffic) : Prop :=
  ((∀ ev ∈ before, ¬ ev.Begins i) ∧
    (u.Waits i k (Query.Obtains k m) ∧ g = .abandon i ∨
      ∃ z, u.Adds g w z ∧ z.caller = i ∧ z.key = k ∧
        (z.deed.Declines k m ∨ z.deed.ChecksInVain m))) ∨
    ∃ z, u.Adds g w z ∧ z.key = k ∧ z.deed.Rejects m

/-- A decision stands, unless a tool rejects the password. -/
theorem decided_or_rejected (hs : s.Regular settings) (hcalm : ∀ host, ev ≠ .clear host)
    (hstep : s.step ev = some t) (hm : Decided m (s.engine.known k)) :
    Decided m (t.engine.known k) ∨ ∃ z, s.Adds ev t z ∧ z.key = k ∧ z.deed.Rejects m := by
  rcases hs.moves_or_rests hcalm hstep with ⟨c, told, d, hmove⟩ | hr
  · by_cases hk : k = c.key
    · subst hk
      refine (hmove.fair.decided m hm).imp_right ?_
      rintro ⟨d', hd', hrejects⟩
      exact ⟨c.note d', hmove.adds hstep hd', rfl, hrejects⟩
    · exact .inl ((hmove.known k hk).symm ▸ hm)
  · exact .inl ((hr.known k).symm ▸ hm)

/-- **One event on the way to a password.** -/
theorem Obtaining.step (h : Obtaining k m i before s) (hs : s.Regular settings)
    (hcalm : ∀ host, ev ≠ .clear host) (hstep : s.step ev = some t) :
    Obtaining k m i (before ++ [ev]) t ∨ Unobtained k m i before s ev t := by
  rcases h with ⟨hwaits, hno⟩ | hdecided
  · have hno' := hwaits.not_begins hstep hno
    obtain ⟨x, q, hx, rfl, hq, hobtains⟩ := hwaits
    rcases hs.moves_or_rests hcalm hstep with ⟨c, told, d, hm⟩ | hr
    · rcases hm.waiting hx hq with ⟨-, -, hstays⟩ | ⟨rfl, rfl, a, rfl⟩
      · exact .inl (.inl ⟨⟨x, q, hstays, rfl, hq, hobtains⟩, hno'⟩)
      · rcases hm.obtains hstep hobtains with ⟨said, limit, rfl⟩ | hdecided | hvain
        · exact .inl (.inl ⟨hm.waits_of_asks (.inr ⟨said, limit, rfl⟩), hno'⟩)
        · exact .inl (.inr hdecided)
        · exact .inr (.inl ⟨hno, .inr hvain⟩)
    · rcases hr.stays i x hx with hstays | ⟨hgone, -⟩
      · exact .inl (.inl ⟨⟨x, q, hstays, rfl, hq, hobtains⟩, hno'⟩)
      · exact .inr (.inl ⟨hno, .inl ⟨⟨x, q, hx, rfl, hq, hobtains⟩, hgone⟩⟩)
  · exact (decided_or_rejected hs hcalm hstep hdecided).imp .inr .inr

/-- The operator is not prompted while a password is being obtained, unless it is not to be had. -/
theorem Obtaining.prompts (h : Obtaining k m i before s) (hs : s.Regular settings)
    (hcalm : ∀ host, ev ≠ .clear host) (hz : s.Adds ev t z) (hkey : z.key = k)
    (hprompts : z.deed.Prompts k m) : Unobtained k m i before s ev t := by
  obtain ⟨user, hdeed⟩ := hprompts
  rcases hs.moves_or_rests hcalm hz.1 with ⟨c, told, d, hm⟩ | hr
  · obtain ⟨hzkey, -, hasks⟩ := hm.of_adds hz
    obtain rfl := hasks _ hdeed
    obtain rfl : c.key = k := hzkey.symm.trans hkey
    have hundecided := hm.fair.prompts m user rfl
    rcases h with ⟨⟨x, q, hx, hxkey, hq, hobtains⟩, hno⟩ | hdecided
    · rcases hm.waiting hx hq with ⟨-, hne, -⟩ | ⟨rfl, rfl, a, rfl⟩
      · exact absurd hxkey.symm hne
      · rcases hm.obtains hz.1 hobtains with ⟨said, limit, hd⟩ | hdecided | hvain
        · cases hd
        · exact absurd hdecided hundecided
        · exact .inl ⟨hno, .inr hvain⟩
    · exact .inr ((decided_or_rejected hs hcalm hz.1 hdecided).resolve_left hundecided)
  · exact absurd hz hr.not_adds

/-! ## The whole -/

/-- **Elevation on one login is serial.**  Whatever calls come, fail or are given up, as long as
nothing is forgotten:

* of the calls on a login only one is past the lock at a time, and while a call asks, hears or ends,
  all others on its login queue;
* between two notes of one call no other call on the login makes one;
* between two detections of a login, the first one fails or is given up;
* between two prompts for the password of a method, or at the second one, the operator said nothing
  to the first one, its check broke off or its call was given up, or a tool has rejected the
  password. -/
theorem serialized (settings : ElevationSettings) :
    (∀ es s, (idle settings).run es = some s → Calm es →
      (∀ i j x x', s.calls.get? i = some x → s.calls.get? j = some x' → x.key = x'.key →
        x.phase ≠ .queued → x'.phase ≠ .queued → i = j) ∧
      ∀ ev t y, s.Adds ev t y → (∀ host, ev ≠ .clear host) → ∀ i x, i ≠ y.caller →
        s.calls.get? i = some x ∨ t.calls.get? i = some x → x.key = y.key → x.phase = .queued) ∧
    ∀ y t since u g w z, Follows settings y t since u g w z → z.key = y.key →
      (z.caller = y.caller → (∀ b ∈ since ++ [g], ¬ b.Begins y.caller) →
        ¬ t.Once since fun _ u₁ b u₂ => ∃ x, u₁.Adds b u₂ x ∧ x.key = y.key ∧ x.caller ≠ y.caller) ∧
      (y.deed.StartsDetection → z.deed.StartsDetection →
        t.Once since (Undetected y.key y.caller)) ∧
      ∀ m, y.deed.Prompts y.key m → z.deed.Prompts y.key m →
        t.Once (since ++ [g]) (Unobtained y.key m y.caller) := by
  have hregular {es : List Event} {s : Traffic} (hrun : (idle settings).run es = some s)
      (hcalm : Calm es) : s.Regular settings :=
    ((Regular.idle settings).keeps (fun _ => True) trivial hcalm hrun
      fun _ _ _ _ _ _ _ => trivial).1
  refine ⟨fun es s hrun hcalm => ?_, fun y t since u g w z hfollows hkey => ?_⟩
  · have hs := hregular hrun hcalm
    refine ⟨fun i j x x' => hs.eq_of_inside, fun ev t y hy hev i x => others_queue hs hev hy⟩
  obtain ⟨es, ev, s, hrun, hy, hsince, hz, hcalm⟩ := hfollows
  have hs : s.Regular settings := hregular hrun fun e he => hcalm e (by simp [he])
  have hev : ∀ host, ev ≠ .clear host := hcalm ev (by simp)
  have hg : ∀ host, g ≠ .clear host := hcalm g (by simp)
  have hbetween : Calm since := fun e he => hcalm e (by simp [he])
  have ht : t.Regular settings := hs.step hev hy.1
  refine ⟨not_interleaved hs (fun e he => hcalm e (by simp at he ⊢; tauto)) hy hsince hz, ?_, ?_⟩
  · rintro ⟨limit, hdeed⟩ hagain
    have hprobing : Probing y.key y.caller [] t :=
      .inl ⟨waits_of_asked hs hev hy hdeed ⟨_, limit, rfl⟩, List.forall_mem_nil _⟩
    obtain ⟨hu, hlast | honce⟩ := ht.run hprobing hbetween hsince
      fun before e v v' he hv hJ hstep => hJ.step hv (hbetween e he) hstep
    · exact absurd hagain (hlast.not_starts hu hg hz hkey)
    · exact honce
  · rintro m ⟨user, hdeed⟩ hagain
    have hobtaining : Obtaining y.key m y.caller [] t :=
      .inl ⟨waits_of_asked hs hev hy hdeed (.inl ⟨user, rfl⟩), List.forall_mem_nil _⟩
    obtain ⟨hu, hlast | honce⟩ := ht.run hobtaining hbetween hsince
      fun before e v v' he hv hJ hstep => hJ.step hv (hbetween e he) hstep
    · exact ⟨since, g, [], u, w, rfl, hsince, hz.1, hlast.prompts hu hg hz hkey hagain⟩
    · exact honce.append [g]

/-- The operator declines the password that the first call asks for, and is prompted again by the
second one, which has waited for its turn. -/
theorem prompted_after_declining :
    ∃ y t u w z, Follows ⟨.ofSecs 30, .ofSecs 15⟩ y t
        [.answer 0 (.secret none), .answer 1 .admitted] u (.answer 1 (.secret none)) w z ∧
      y.deed.Prompts y.key .sudoPassword ∧ z.deed.Prompts y.key .sudoPassword ∧
      t.Once ([.answer 0 (.secret none), .answer 1 .admitted] ++ [.answer 1 (.secret none)])
        (Unobtained ⟨"ann", "a", 22⟩ .sudoPassword 0) := by
  -- The two calls, and the answers to the probes of the first one.
  have hruns : ((idle ⟨.ofSecs 30, .ofSecs 15⟩).run (wrongPassword.take 8)).bind (fun s =>
      (s.step (.answer 0 (.secret none))).bind fun t =>
        (t.run [.answer 0 (.secret none), .answer 1 .admitted]).bind fun u =>
          (u.step (.answer 1 (.secret none))).map fun w =>
            (t.journal[0]?, w.journal[0]?, t.journal.length - s.journal.length,
              w.journal.length - u.journal.length)) =
      some (some (0, .mk 0 ⟨"ann", "a", 22⟩ "id" (.ofSecs 60)
          (.asks (.prompt "Enter password for ann@a (sudo_with_password):"))),
        some (0, .mk 1 ⟨"ann", "a", 22⟩ "ls" (.ofSecs 60)
          (.asks (.prompt "Enter password for ann@a (sudo_with_password):"))), 3, 3) := by rfl
  obtain ⟨s, hs, hruns⟩ := Option.bind_eq_some_iff.mp hruns
  obtain ⟨t, ht, hruns⟩ := Option.bind_eq_some_iff.mp hruns
  obtain ⟨u, hu, hruns⟩ := Option.bind_eq_some_iff.mp hruns
  obtain ⟨w, hw, hnotes⟩ := Option.map_eq_some_iff.mp hruns
  simp only [Prod.mk.injEq] at hnotes
  obtain ⟨hfirst, hsecond, htlength, hwlength⟩ := hnotes
  have hfollows : Follows ⟨.ofSecs 30, .ofSecs 15⟩ _ t
      [.answer 0 (.secret none), .answer 1 .admitted] u (.answer 1 (.secret none)) w _ :=
    ⟨_, _, s, hs, adds_of_getElem? ht hfirst (by omega), hu,
      adds_of_getElem? hw hsecond (by omega), by simp [Calm, wrongPassword]⟩
  refine ⟨_, t, u, w, _, hfollows, ⟨"ann", rfl⟩, ⟨"ann", rfl⟩, ?_⟩
  exact ((serialized ⟨.ofSecs 30, .ofSecs 15⟩).2 _ _ _ _ _ _ _ hfollows rfl).2.2 .sudoPassword
    ⟨"ann", rfl⟩ ⟨"ann", rfl⟩

end Traffic

end RemoteShell.Elevation
