import RemoteShell.Proofs.Dialogue.Paths
import RemoteShell.Proofs.Elevation.Conduct
import RemoteShell.Proofs.Elevation.Turns

/-!
# Faults of commands

A call that does not find that no method helps, and ends in a fault all the same, passes on the
fault of a command, and it does so right when it is told: it keeps nothing, stores nothing and asks
for nothing after it.  A probe or a check that does not come back in time is an answer like others,
so its time limit is never passed on; that of any other command is.

This is a property of dialogues that goes on with them, so that it holds of all calls in any
traffic.

## Main definitions

* `Errand.EndsIn`: how a call ends at the fault of an errand
* `Talk.Frank`: a dialogue ends at the faults of its errands, and has no others
* `Traffic.Ends`: an event ends a call

## Main results

* `frank_ascend`: every call is frank
* `Traffic.Frank.run`: all calls stay so in any run
* `Traffic.Frank.ends`: what an event does that ends a call in a fault
-/

namespace RemoteShell.Elevation

variable {key : Login} {p : Profile} {m : Method} {password : Option String} {command : String}
  {timeout limit : Duration} {c d : Climb} {e : Engine} {f : Fault}

/-- **How a call ends** at the fault of an errand: with this fault, and without a profile if the
errand is a probe. -/
def Errand.EndsIn : Errand → Fault → Ending → Prop
  | .probe .., f, x => f.kind ≠ .commandTimeout ∧ x = .undetected f
  | .check .., f, x => f.kind ≠ .commandTimeout ∧ x = .finished (.error f)
  | .plain .., f, x | .elevated .., f, x => x = .finished (.error f)

/-- The only fault of its own that a call may end in is that no method helps. -/
def Ending.Own (x : Ending) : Prop :=
  ∀ f, x.result = .finished (.error f) → f.kind = .elevationUnavailable

protected theorem Ending.Own.crashed : Ending.crashed.Own := by
  rintro f ⟨⟩

protected theorem Ending.Own.ok (out : Elevated) : (Ending.finished (.ok out)).Own := by
  rintro f ⟨⟩

theorem Errand.EndsIn.result_eq {d : Errand} {x : Ending} (h : d.EndsIn f x) :
    x.result = .finished (.error f) ∧ (f.kind = .commandTimeout → d.RunsCommand) := by
  cases d with
  | probe command limit =>
    obtain ⟨hkind, rfl⟩ := h
    exact ⟨rfl, fun hf => absurd hf hkind⟩
  | check m password limit =>
    obtain ⟨hkind, rfl⟩ := h
    exact ⟨rfl, fun hf => absurd hf hkind⟩
  | plain command timeout =>
    obtain rfl : x = .finished (.error f) := h
    exact ⟨rfl, fun _ => trivial⟩
  | elevated m password command timeout =>
    obtain rfl : x = .finished (.error f) := h
    exact ⟨rfl, fun _ => trivial⟩

/-! ## Frank dialogues -/

namespace Talk

variable {α β : Type} {own : α → Prop} {own' : β → Prop} {passes : Errand → Fault → α → Prop}
  {passes' : Errand → Fault → β → Prop}

/-- **A frank dialogue** passes on the fault of an errand as soon as it is told, and ends in a way
of its own everywhere else. -/
def Frank (own : α → Prop) (passes : Errand → Fault → α → Prop) : Talk α → Prop
  | .done x => own x
  | .ask q next => ∀ a, Frank own passes (next a) ∨
      ∃ d f x, (⟨q, a⟩ : Sigma Query.Answer) = ⟨.run d, .error f⟩ ∧ next a = .done x ∧ passes d f x

/-- A question that is answered one way or another. -/
theorem Frank.ask {q : Query} {next : q.Answer → Talk α}
    (hnext : ∀ a, Frank own passes (next a)) : Frank own passes (.ask q next) :=
  fun a => .inl (hnext a)

/-- An errand, whose faults are passed on. -/
theorem Frank.run {d : Errand} {next : Except Fault Reply → Talk α}
    (hnext : ∀ a, Frank own passes (next a) ∨
      ∃ f x, a = .error f ∧ next a = .done x ∧ passes d f x) :
    Frank own passes ((Talk.run d).bind next) := by
  intro a
  rcases hnext a with hnext | ⟨f, x, rfl, hnext⟩
  · exact .inl hnext
  · exact .inr ⟨d, f, x, rfl, hnext⟩

/-- **Sequences**: a fault that the first part passes on is passed on by the whole. -/
theorem Frank.bind {t : Talk α} {g : α → Talk β} (ht : Frank own passes t)
    (hown : ∀ x, own x → Frank own' passes' (g x))
    (hpasses : ∀ d f x, passes d f x → ∃ y, g x = .done y ∧ passes' d f y) :
    Frank own' passes' (t.bind g) := by
  induction t with
  | done x => exact hown x ht
  | ask q next ih =>
    intro a
    rcases ht a with hnext | ⟨d, f, x, ha, hx, hends⟩
    · exact .inl (ih a hnext)
    · obtain ⟨y, hy, hends⟩ := hpasses d f x hends
      exact .inr ⟨d, f, y, ha, (congrArg (·.bind g) hx).trans hy, hends⟩

/-- **On a way through a frank dialogue** it is told a fault that it passes on, or it ends in a way
of its own. -/
theorem Frank.of_path {t : Talk α} (ht : Frank own passes t)
    {l : List ((q : Query) × q.Answer)} {x : α} (hpath : t.Path l x) :
    own x ∨ ∃ d f, ⟨.run d, .error f⟩ ∈ l ∧ passes d f x := by
  induction hpath with
  | done x => exact .inl ht
  | @ask q next a l x hpath ih =>
    rcases ht a with hnext | ⟨d, f, y, ha, hy, hends⟩
    · refine (ih hnext).imp_right ?_
      rintro ⟨d, f, hmem, hends⟩
      exact ⟨d, f, List.mem_cons_of_mem _ hmem, hends⟩
    · rw [hy] at hpath
      obtain ⟨-, rfl⟩ := Dialogue.path_done hpath
      exact .inr ⟨d, f, ha ▸ List.mem_cons_self, hends⟩

end Talk

/-- A dialogue that passes on nothing, and ends as it likes. -/
abbrev Talk.Unbroken {α : Type} : Talk α → Prop := Talk.Frank (fun _ => True) fun _ _ _ => False

/-- A detection gives a profile, or passes on the fault of a probe. -/
theorem frank_detectWith (fallback : String) (qs : List Probe) (p : Profile) :
    Talk.Frank (fun r => ∃ p, r = .ok p)
      (fun d f r => d.EndsIn f (.undetected f) ∧ r = .error f)
      (detectWith fallback limit qs p) := by
  induction qs generalizing p with
  | nil => exact ⟨p, rfl⟩
  | cons q qs ih =>
    rw [detectWith]
    split
    · intro a
      cases ha : probeAnswer a with
      | error f =>
        obtain ⟨rfl, hkind⟩ := kind_of_probeAnswer ha
        exact .inr ⟨_, f, .error f, rfl, by simp only [ha], ⟨hkind, rfl⟩, rfl⟩
      | ok r =>
        refine .inl ?_
        simp only [ha]
        exact ih _
    · exact ih p

theorem frank_passwordFor (key : Login) (p : Profile) (m : Method) :
    (passwordFor key p m).Unbroken := by
  rw [passwordFor]
  split
  · split
    · trivial
    · refine Talk.Frank.ask fun stored => ?_
      cases stored with
      | some s => trivial
      | none =>
        refine Talk.Frank.ask fun said => ?_
        cases said with
        | some s => trivial
        | none => trivial
  · trivial

/-- A check comes to a verdict, or passes on the fault of its command. -/
theorem frank_verify (key : Login) (p : Profile) (m : Method) (password : Option String) :
    Talk.Frank (fun v => ∀ f, v ≠ .broken f)
      (fun d f v => d.EndsIn f (.finished (.error f)) ∧ v = .broken f)
      (verify limit key p m password) := by
  rw [verify]
  refine Talk.Frank.run fun a => ?_
  cases hcheck : checkReply m a with
  | none => exact .inl (by rintro f ⟨⟩)
  | some verdict =>
    cases verdict with
    | error f =>
      obtain rfl := eq_error_of_checkReply hcheck
      have hkind : f.kind ≠ .commandTimeout := breaksOff_of_checkReply (.inr ⟨f, hcheck⟩)
      exact .inr ⟨f, .broken f, rfl, rfl, ⟨hkind, rfl⟩, rfl⟩
    | ok outcome =>
      left
      cases outcome with
      | some o =>
        refine Talk.Frank.ask fun _ => ?_
        rw [Dialogue.done_bind]
        split
        · exact Talk.Frank.ask fun _ => by rintro f ⟨⟩
        · rintro f ⟨⟩
      | none =>
        refine Talk.Frank.ask fun _ => ?_
        rw [Dialogue.done_bind]
        cases password with
        | none => rintro f ⟨⟩
        | some s => exact Talk.Frank.ask fun _ => by rintro f ⟨⟩

/-- A run returns a reply, crashes, or passes on the fault of the command. -/
theorem frank_runWith (key : Login) (p : Profile) (m : Method) (password : Option String) :
    Talk.Frank Ending.Own Errand.EndsIn (runWith key p m password command timeout) := by
  rw [runWith]
  refine Talk.Frank.run fun a => ?_
  cases a with
  | error f => exact .inr ⟨f, .finished (.error f), rfl, rfl, rfl⟩
  | ok raw =>
    refine .inl ?_
    dsimp only
    split
    · exact .crashed
    · split
      · exact Talk.Frank.ask fun _ => Talk.Frank.ask fun _ => .ok _
      · exact .ok _

theorem frank_tryMethods (key : Login) (ms : List Method) (p : Profile) (passed : List Attempt) :
    Talk.Frank Ending.Own Errand.EndsIn
      (tryMethods limit key command timeout ms p passed) := by
  induction ms generalizing p passed with
  | nil =>
    intro f hf
    cases hf
    rfl
  | cons m ms ih =>
    rw [tryMethods]
    split
    · exact ih p _
    split
    · exact ih p _
    · refine (frank_passwordFor key p m).bind (fun r _ => ?_) fun _ _ _ => False.elim
      cases r with
      | error o => exact ih p _
      | ok password =>
        dsimp only
        split
        · exact frank_runWith key p m password
        · refine (frank_verify key p m password).bind (fun v hv => ?_) ?_
          · cases v with
            | unreadable => exact .crashed
            | broken f => exact absurd rfl (hv f)
            | failed q o => exact ih q _
            | trusted q => exact frank_runWith key q m password
          · rintro d f _ ⟨hends, rfl⟩
            exact ⟨.finished (.error f), rfl, hends⟩

theorem frank_ascendFrom (s : ElevationSettings) (key : Login) (p : Profile) :
    Talk.Frank Ending.Own Errand.EndsIn (ascendFrom s key command timeout p) := by
  rw [ascendFrom]
  split
  · refine Talk.Frank.run fun a => ?_
    cases a with
    | error f => exact .inr ⟨f, .finished (.error f), rfl, rfl, rfl⟩
    | ok r => exact .inl (.ok _)
  · exact frank_tryMethods key _ p _

/-- **Every call is frank.** -/
theorem frank_ascend (s : ElevationSettings) (key : Login) (command : String)
    (timeout : Duration) (profile : Option Profile) :
    Talk.Frank Ending.Own Errand.EndsIn (ascend s key command timeout profile) := by
  cases profile with
  | some p => exact frank_ascendFrom s key p
  | none =>
    refine (frank_detectWith key.user Probe.order _).bind ?_ ?_
    · rintro _ ⟨p, rfl⟩
      exact Talk.Frank.ask fun _ => frank_ascendFrom s key p
    · rintro d f _ ⟨hends, rfl⟩
      exact ⟨.undetected f, rfl, hends⟩

/-! ## Calls -/

namespace Climb

/-- A call that waits is frank in what it still has to say. -/
def Frank (c : Climb) : Prop :=
  match c.phase with
  | .queued => True
  | .talking t => Talk.Frank Ending.Own Errand.EndsIn t

/-- A frank call stays so when it goes on, and ends in a way of its own if it ends. -/
theorem frank_follow {t : Talk Ending} (ht : Talk.Frank Ending.Own Errand.EndsIn t) :
    (∀ d, (c.follow t e).2 = .waits d → d.Frank) ∧
      ∀ r, (c.follow t e).2 = .ends r → ∃ x : Ending, x.Own ∧ x.result = r := by
  induction t generalizing e with
  | done x =>
    obtain ⟨table, -, hfinish⟩ := c.finish_eq x e
    rw [follow, hfinish]
    refine ⟨by simp, fun r hr => ⟨x, ht, Progress.ends.inj hr⟩⟩
  | ask q next ih =>
    rcases q.outward_or_keep with hq | ⟨p, rfl⟩
    · rw [c.follow_ask hq]
      refine ⟨fun d hd => ?_, by simp⟩
      obtain rfl := Progress.waits.inj hd
      exact ht
    · have hnext : Talk.Frank Ending.Own Errand.EndsIn (next ()) :=
        (ht ()).resolve_right (by rintro ⟨d, f, x, ⟨⟩, -⟩)
      exact ih () hnext

end Climb

/-! ## Traffic -/

namespace Traffic

variable {s t : Traffic} {ev : Event} {es : List Event} {settings : ElevationSettings}
  {inv : Login → Option Profile → List Note → Prop} {r : Climb.Result}

/-- All calls are frank. -/
def Frank (s : Traffic) : Prop := ∀ id c, s.calls.get? id = some c → c.Frank

theorem Frank.after {told : List Deed} {x : Engine × Progress Climb Climb.Result} (h : s.Frank)
    (hx : ∀ d, x.2 = .waits d → d.Frank) : (s.after c told x).Frank := by
  intro id d hd
  rcases get?_after hd with ⟨-, hd⟩ | ⟨-, hwaits⟩
  · exact h id d hd
  · exact hx d hwaits

theorem Frank.step (h : s.Frank) (hstep : s.step ev = some t) : t.Frank := by
  cases happens hstep with
  | queues new =>
    refine h.after fun d hd => ?_
    obtain rfl := Progress.waits.inj hd
    trivial
  | enters new turn => exact h.after (Climb.frank_follow (frank_ascend ..)).1
  | begins call turn phase => exact h.after (Climb.frank_follow (frank_ascend ..)).1
  | @hears id a c q next x call phase takes =>
    have hfrank : Talk.Frank Ending.Own Errand.EndsIn (.ask q next) := by
      have := h id c call
      rwa [Climb.Frank, phase] at this
    rcases hfrank x with hnext | ⟨d, f, y, -, hy, -⟩
    · exact h.after (Climb.frank_follow hnext).1
    · refine h.after fun d hd => ?_
      obtain ⟨table, -, hfinish⟩ := c.finish_eq y s.engine
      rw [hy, Climb.follow, hfinish] at hd
      cases hd
  | @abandons id c call =>
    intro i d hd
    by_cases hi : i = id
    · subst hi
      exact absurd ((Assoc.get?_erase_self ..).symm.trans hd) (Option.some_ne_none d).symm
    · exact h i d ((Assoc.get?_erase_of_ne _ hi).symm.trans hd)
  | clears host => exact h

/-- **All calls stay frank** in any run. -/
theorem Frank.run (h : s.Frank) (hrun : s.run es = some t) : t.Frank := by
  induction es generalizing s with
  | nil =>
    obtain rfl := Option.some.inj hrun
    exact h
  | cons ev es ih =>
    obtain ⟨u, hu, hrun⟩ := Option.bind_eq_some_iff.mp hrun
    exact ih (h.step hu) hrun

protected theorem Frank.idle (settings : ElevationSettings) : (idle settings).Frank := nofun

/-- **An event ends a call**, which comes with it or is told an answer. -/
inductive Ends (s : Traffic) : Event → Climb → Climb.Result → Prop
  | call {id : CallId} {key : Login} {command : String} {timeout : Duration} {on : Option ConnId}
      {r : Climb.Result} (ends : (Climb.start id key command timeout on s.engine).2 = .ends r) :
      Ends s (.call id key command timeout on) (.arrive id key command timeout on s.engine) r
  | answer {id : CallId} {a : Answer} {c : Climb} {r : Climb.Result}
      (call : s.calls.get? id = some c) (ends : (c.resume a s.engine).2 = .ends r) :
      Ends s (.answer id a) c r

/-- A call that begins does not end in the fault of a command. -/
theorem kind_of_begin (hends : (c.begin e).2 = .ends (.finished (.error f))) :
    f.kind = .elevationUnavailable := by
  obtain ⟨x, hown, hx⟩ := (Climb.frank_follow (frank_ascend ..)).2 _ hends
  exact hown f hx

/-- A call that ends when it is answered has begun then, or has heard what it has asked for. -/
theorem resume_cases {a : Answer} (hends : (c.resume a e).2 = .ends r) :
    c.resume a e = c.begin e ∨ ∃ q next x, c.phase = .talking (.ask q next) ∧
      q.take? a = some x ∧ c.told a = [.hears q x] ∧ c.resume a e = c.follow (next x) e := by
  obtain ⟨caller, key, command, timeout, on, cell, phase⟩ := c
  cases phase with
  | queued =>
    cases a with
    | admitted => exact .inl rfl
    | _ => cases hends
  | talking talk =>
    cases talk with
    | done y => cases hends
    | ask q next =>
      simp only [Climb.resume] at hends ⊢
      cases htake : q.take? a with
      | none =>
        simp only [htake] at hends
        cases hends
      | some x => exact .inr ⟨q, next, x, rfl, htake, by simp [Climb.told, htake], rfl⟩

/-- An answer is told to the call that waits for it. -/
theorem eq_after_of_answer {id : CallId} {a : Answer} (call : s.calls.get? id = some c)
    (hstep : s.step (.answer id a) = some t) : t = s.after c (c.told a) (c.resume a s.engine) := by
  obtain ⟨d, hd, hstep⟩ := Option.bind_eq_some_iff.mp hstep
  obtain rfl := Option.some.inj (call.symm.trans hd)
  split at hstep
  · exact (Option.some.inj hstep).symm
  · cases hstep

/-- **What an event does that ends a call in a fault**: the call is told this fault in answer to an
errand, and ends with it as the errand has it. -/
theorem Frank.ends (h : s.Frank) (hs : s.Sound inv settings) (hstep : s.step ev = some t)
    (hends : s.Ends ev c (.finished (.error f))) (hf : f.kind ≠ .elevationUnavailable) :
    ∃ d x, d.EndsIn f x ∧ c.Asks (.run d) ∧ s.calls.get? c.caller = some c ∧
      ev = .answer c.caller (.replied (.error f)) ∧
      t = s.after c [.hears (.run d) (.error f)] (c.finish x s.engine) := by
  cases hends with
  | call ends =>
    rw [Climb.start_eq] at ends
    split at ends
    · exact absurd (kind_of_begin ends) hf
    · cases ends
  | @answer id a _ _ call ends =>
    obtain rfl := hs.caller_eq call
    have ht := eq_after_of_answer call hstep
    rcases resume_cases ends with hbegins | ⟨q, next, b, hphase, htake, htold, hresume⟩
    · rw [hbegins] at ends
      exact absurd (kind_of_begin ends) hf
    · have hfrank : Talk.Frank Ending.Own Errand.EndsIn (.ask q next) := by
        have := h _ c call
        rwa [Climb.Frank, hphase] at this
      rw [hresume] at ends ht
      rcases hfrank b with hnext | ⟨d, g, x, hb, hx, hd⟩
      · obtain ⟨x, hown, hx⟩ := (Climb.frank_follow hnext).2 _ ends
        exact absurd (hown f hx) hf
      · obtain ⟨rfl, hb⟩ := Sigma.mk.inj hb
        obtain rfl := eq_of_heq hb
        obtain ⟨table, -, hfinish⟩ := c.finish_eq x s.engine
        rw [hx, Climb.follow] at ends ht
        rw [hfinish, hd.result_eq.1] at ends
        obtain rfl : g = f :=
          Except.error.inj (Climb.Result.finished.inj (Progress.ends.inj ends))
        have ha : a = .replied (.error g) := by
          cases a with
          | replied r =>
            obtain rfl := Option.some.inj htake
            rfl
          | _ => cases htake
        exact ⟨d, x, hd, ⟨next, hphase⟩, call, congrArg _ ha, htold ▸ ht⟩

end Traffic

end RemoteShell.Elevation
