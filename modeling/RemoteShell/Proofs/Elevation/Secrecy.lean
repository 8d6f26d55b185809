import RemoteShell.Proofs.Elevation.Likeness
import RemoteShell.Proofs.Elevation.Soundness

/-!
# Passwords stay out of sight

Two engines in companies that differ in passwords show the same, whatever happens on them: they send
the same requests but for what is written to their input, ask the operator and the vault the same,
end their calls in the same way, and summarize and describe their profiles alike.  So no password
has a say in what a call does next.

The proof goes along the cues.  The two engines are the same once the passwords are taken out of
their profiles, the calls wait with alike dialogues, and what has been noted looks the same; every
cue keeps that.

## Main definitions

* `Engine.redacted`, `Climb.Alike`, `Climb.Comes`: engines and calls that differ in passwords
* `Traffic.Alike`, `Scene.Alike`: the same for an engine with its calls, alone and in company

## Main results

* `Climb.Comes.follow`: calls go on alike
* `Scene.Alike.step`, `Scene.Alike.run`: scenes stay alike
* `shows_eq_of_alike`: scenes in companies that differ in passwords show the same
-/

namespace RemoteShell.Elevation

/-! ## Engines -/

/-- An engine with the passwords taken out of its profiles. -/
def Engine.redacted (e : Engine) : Engine :=
  { e with profiles := e.profiles.map (Option.map Profile.redacted) }

namespace Engine

variable (e : Engine) (caller : CallId) (key : Login) (n : CellId)

theorem entered_redacted : e.redacted.entered caller key = (e.entered caller key).redacted := by
  simp only [entered, redacted]
  rw [← Option.map_none Profile.redacted, Cells.openCell_map, Cells.enter_map]
  rfl

theorem setValue_redacted (v : Option Profile) :
    { e.redacted with
        profiles := e.redacted.profiles.setValue n (v.map Profile.redacted) } =
      redacted { e with profiles := e.profiles.setValue n v } := by
  simp only [redacted, Cells.setValue_map]

/-- Profiles that differ in passwords are kept on engines that do. -/
theorem setValue_eq_of_redacted {e e' : Engine} {v v' : Option Profile} (n : CellId)
    (he : e.redacted = e'.redacted) (hv : v.map Profile.redacted = v'.map Profile.redacted) :
    redacted { e with profiles := e.profiles.setValue n v } =
      redacted { e' with profiles := e'.profiles.setValue n v' } := by
  rw [← setValue_redacted, he, hv, setValue_redacted]

theorem value?_redacted : (e.redacted.profiles.value? n).join =
    (e.profiles.value? n).join.map Profile.redacted := by
  rw [redacted, Cells.value?_map]
  cases e.profiles.value? n <;> rfl

theorem summary?_redacted : e.redacted.summary? key = e.summary? key := by
  rw [summary?, redacted, Cells.current?_map, summary?]
  cases e.profiles.current? key with
  | none => rfl
  | some x =>
    obtain ⟨v, holder, waiting, handles⟩ := x
    cases holder with
    | none => cases v <;> rfl
    | some _ => rfl

theorem clear_redacted (host : Option String) :
    e.redacted.clear host = ((e.clear host).1, (e.clear host).2.redacted) := rfl

end Engine

namespace Climb

variable (c : Climb) (e : Engine)

theorem release_redacted : c.release e.redacted = (c.release e).redacted := by
  simp only [release, Engine.redacted, Cells.release_map]

theorem finish_redacted (x : Ending) :
    c.finish x e.redacted = ((c.finish x e).1.redacted, (c.finish x e).2) := by
  cases x with
  | finished r => exact congrArg (·, _) (c.release_redacted e)
  | crashed => exact congrArg (·, _) (c.release_redacted e)
  | undetected f =>
    simp only [finish, dropUndetected, c.release_redacted]
    refine congrArg (·, _) (congrArg (Engine.mk e.settings) ?_)
    refine Cells.retire_map _ _ _ fun x => ?_
    rw [Cell.map, Option.isNone_map]

theorem admitted_redacted : c.admitted e.redacted = c.admitted e := Cells.admits_map _ _ _ _

variable {e} in
theorem admitted_eq_of_redacted {e' : Engine} (he : e.redacted = e'.redacted) :
    c.admitted e' = c.admitted e := by
  rw [← admitted_redacted, ← he, admitted_redacted]

/-! ## Calls -/

/-- **Calls that differ in passwords**: one is the other but for what it is waiting for, and the
dialogues that they are in are alike. -/
inductive Alike : Climb → Climb → Prop where
  | queued (c : Climb) (h : c.phase = .queued) : Alike c c
  | talking (c : Climb) {t t' : Talk Ending} (h : c.phase = .talking t)
    (ht : Talk.Alike Eq t t') : Alike c { c with phase := .talking t' }

/-- How far calls have come that differ in passwords: both wait, or both end with one result. -/
inductive Match : Progress Climb Result → Progress Climb Result → Prop where
  | waits {c c' : Climb} (h : c.Alike c') : Match (.waits c) (.waits c')
  | ends (r : Result) : Match (.ends r) (.ends r)

/-- **What calls have come to** that differ in passwords. -/
structure Comes (x x' : Engine × Progress Climb Result) : Prop where
  engine : x.1.redacted = x'.1.redacted
  progress : Match x.2 x'.2

variable {c e} {e' : Engine}

theorem Comes.finish (c : Climb) (phase : Phase) (he : e.redacted = e'.redacted) (x : Ending) :
    Comes (c.finish x e) (Climb.finish { c with phase := phase } x e') := by
  have hfinish : Climb.finish { c with phase := phase } x e' = c.finish x e' := by
    cases x <;> rfl
  have hsame : ((c.finish x e).1.redacted, (c.finish x e).2) =
      ((c.finish x e').1.redacted, (c.finish x e').2) := by
    rw [← finish_redacted, he, finish_redacted]
  obtain ⟨hengine, hprogress⟩ := Prod.mk.inj hsame
  rw [hfinish]
  refine ⟨hengine, ?_⟩
  rw [hprogress]
  obtain ⟨table, -, hends⟩ := c.finish_eq x e'
  rw [hends]
  exact .ends _

/-- **Calls go on alike** with alike dialogues. -/
theorem Comes.follow (c : Climb) (phase : Phase) {t t' : Talk Ending} (ht : Talk.Alike Eq t t')
    (he : e.redacted = e'.redacted) :
    Comes (c.follow t e) (Climb.follow { c with phase := phase } t' e') := by
  -- Along the dialogues: profiles are kept on the way, and at any other question both wait.
  induction ht generalizing e e' with
  | done h =>
    subst h
    exact Comes.finish c phase he _
  | keep hp _ ih => exact ih () (Engine.setValue_eq_of_redacted c.cell he (congrArg some hp))
  | run hr h => exact ⟨he, .waits (.talking _ rfl (.run hr h))⟩
  | prompt h => exact ⟨he, .waits (.talking _ rfl (.prompt h))⟩
  | fetch h => exact ⟨he, .waits (.talking _ rfl (.fetch h))⟩
  | store h => exact ⟨he, .waits (.talking _ rfl (.store h))⟩
  | erase h => exact ⟨he, .waits (.talking _ rfl (.erase h))⟩

theorem Comes.begin (c : Climb) (phase : Phase) (he : e.redacted = e'.redacted) :
    Comes (c.begin e) (Climb.begin { c with phase := phase } e') := by
  have hsettings : e'.settings = e.settings := by
    change e'.redacted.settings = e.redacted.settings
    rw [he]
  have hvalue : (e.profiles.value? c.cell).join.map Profile.redacted =
      (e'.profiles.value? c.cell).join.map Profile.redacted := by
    rw [← Engine.value?_redacted, he, Engine.value?_redacted]
  rw [Climb.begin, Climb.begin, hsettings]
  exact Comes.follow c phase (alike_ascend e.settings c.key hvalue) he

theorem arrive_redacted (caller : CallId) (key : Login) (command : String) (timeout : Duration)
    (on : Option ConnId) (e : Engine) :
    arrive caller key command timeout on e.redacted = arrive caller key command timeout on e := by
  rw [arrive, arrive, Engine.redacted, ← Option.map_none Profile.redacted, Cells.openCell_map]
  rfl

/-- Calls begin alike. -/
theorem Comes.start (caller : CallId) (key : Login) (command : String) (timeout : Duration)
    (on : Option ConnId) (he : e.redacted = e'.redacted) :
    Comes (Climb.start caller key command timeout on e)
      (Climb.start caller key command timeout on e') := by
  have harrive : arrive caller key command timeout on e' =
      arrive caller key command timeout on e := by
    rw [← arrive_redacted, ← he, arrive_redacted]
  have hentered : (e.entered caller key).redacted = (e'.entered caller key).redacted := by
    rw [← Engine.entered_redacted, he, Engine.entered_redacted]
  rw [start_eq, start_eq, harrive, admitted_eq_of_redacted _ hentered]
  split
  · exact Comes.begin _ _ hentered
  · exact ⟨hentered, .waits (.queued _ rfl)⟩

/-! ## Notes -/

variable {arrange : List Method → List Method} {c' : Climb}
  {x x' : Engine × Progress Climb Result}

/-- What calls come to that differ in passwords looks the same. -/
theorem Match.comesTo {y y' : Progress Climb Result} (h : Match y y') :
    (Climb.comesTo y).map (Deed.sight? arrange) = (Climb.comesTo y').map (Deed.sight? arrange) := by
  cases h with
  | ends r => rfl
  | waits hc =>
    cases hc with
    | queued hqueued => rfl
    | talking htalking ht =>
      simp only [Climb.comesTo, htalking]
      cases ht with
      | done _ => rfl
      | run he h => exact congrArg (some ∘ some) (Talk.Alike.sight_eq (.run he h) arrange)
      | keep hp h => exact congrArg (some ∘ some) (Talk.Alike.sight_eq (.keep hp h) arrange)
      | _ => rfl

theorem sights_map_note (c : Climb) (l : List Deed) :
    (l.map c.note).filterMap (Note.sight? arrange) =
      (l.filterMap (Deed.sight? arrange)).map (Prod.mk c.caller) := by
  rw [List.filterMap_map, List.map_filterMap]
  rfl

theorem sights_told (c : Climb) (a : RemoteShell.Answer) :
    (c.told a).filterMap (Deed.sight? arrange) = [] := by
  unfold told
  split
  · next q _ _ =>
    cases q.take? a <;> rfl
  · rfl

/-- **The notes on calls** that differ in passwords look the same. -/
theorem Comes.sights_eq (h : Comes x x') (hcaller : c'.caller = c.caller) (hcell : c'.cell = c.cell)
    (a a' : RemoteShell.Answer) :
    (notesOf c (c.told a) x).filterMap (Note.sight? arrange) =
      (notesOf c' (c'.told a') x').filterMap (Note.sight? arrange) := by
  have hleft : Profile.sight arrange (x.1.profiles.value? c.cell).join =
      Profile.sight arrange (x'.1.profiles.value? c.cell).join := by
    refine Profile.sight_eq_of_redacted arrange ?_
    rw [← Engine.value?_redacted, h.engine, Engine.value?_redacted]
  have hcomes : (Climb.comesTo x.2).map (Deed.sight? arrange) =
      (Climb.comesTo x'.2).map (Deed.sight? arrange) := h.progress.comesTo
  rw [notesOf, notesOf, sights_map_note, sights_map_note, hcaller, hcell]
  refine congrArg (List.map _) ?_
  generalize Climb.comesTo x.2 = did at hcomes ⊢
  generalize Climb.comesTo x'.2 = did' at hcomes ⊢
  cases did with
  | none =>
    obtain rfl : did' = none := Option.map_eq_none_iff.mp hcomes.symm
    exact (c.sights_told a).trans (c'.sights_told a').symm
  | some d =>
    obtain ⟨d', rfl, hd⟩ := Option.map_eq_some_iff.mp hcomes.symm
    have hlast : (Deed.leaves (x.1.profiles.value? c.cell).join).sight? arrange =
        (Deed.leaves (x'.1.profiles.value? c.cell).join).sight? arrange := congrArg some hleft
    simp only [List.filterMap_cons, hd, hlast, sights_told]

end Climb

/-! ## Traffic -/

section Related

variable {α β γ δ : Type} {R : α → β → Prop} {a : Option α} {b : Option β}

theorem isSome_eq_of_rel (h : Option.Rel R a b) : b.isSome = a.isSome := by
  cases h <;> rfl

theorem rel_bind {S : γ → δ → Prop} {f : α → Option γ} {g : β → Option δ} (h : Option.Rel R a b)
    (hfg : ∀ x y, R x y → Option.Rel S (f x) (g y)) : Option.Rel S (a.bind f) (b.bind g) := by
  cases h with
  | none => exact .none
  | some h => exact hfg _ _ h

theorem rel_map {S : γ → δ → Prop} {f : α → γ} {g : β → δ} (h : Option.Rel R a b)
    (hfg : ∀ x y, R x y → S (f x) (g y)) : Option.Rel S (a.map f) (b.map g) := by
  cases h with
  | none => exact .none
  | some h => exact .some (hfg _ _ h)

theorem map_eq_of_rel {f : α → γ} {g : β → γ} (h : Option.Rel R a b)
    (hfg : ∀ x y, R x y → f x = g y) : a.map f = b.map g := by
  cases h with
  | none => rfl
  | some h => exact congrArg some (hfg _ _ h)

theorem rel_ite {x : α} {y : β} {p q : Prop} [Decidable p] [Decidable q] (hpq : p ↔ q)
    (h : p → R x y) : Option.Rel R (if p then some x else none) (if q then some y else none) := by
  by_cases hp : p
  · rw [if_pos hp, if_pos (hpq.mp hp)]
    exact .some (h hp)
  · rw [if_neg hp, if_neg (mt hpq.mpr hp)]
    exact .none

end Related

/-- **Engines with their calls** that differ in passwords, and what has been noted looks the
same. -/
structure Traffic.Alike (arrange : List Method → List Method) (s s' : Traffic) : Prop where
  engine : s.engine.redacted = s'.engine.redacted
  calls : ∀ id, Option.Rel Climb.Alike (s.calls.get? id) (s'.calls.get? id)
  journal : (s.journal.filterMap fun x => x.2.sight? arrange) =
    s'.journal.filterMap fun x => x.2.sight? arrange

theorem Climb.Alike.frame {c c' : Climb} (h : c.Alike c') :
    c'.caller = c.caller ∧ c'.cell = c.cell ∧ c' = { c with phase := c'.phase } := by
  cases h with
  | queued _ => exact ⟨rfl, rfl, rfl⟩
  | talking _ _ => exact ⟨rfl, rfl, rfl⟩

namespace Traffic.Alike

variable {arrange : List Method → List Method} {s s' : Traffic} {c c' : Climb}
  {x x' : Engine × Progress Climb Climb.Result}

protected theorem idle (settings : ElevationSettings) :
    Traffic.Alike arrange (idle settings) (idle settings) :=
  ⟨rfl, fun _ => .none, rfl⟩

theorem erase (h : s.Alike arrange s') (caller id : CallId) :
    Option.Rel Climb.Alike ((s.calls.erase caller).get? id) ((s'.calls.erase caller).get? id) := by
  by_cases hid : id = caller
  · rw [hid, Assoc.get?_erase_self, Assoc.get?_erase_self]
    exact .none
  · rw [Assoc.get?_erase_of_ne _ hid, Assoc.get?_erase_of_ne _ hid]
    exact h.calls id

/-- Calls have gone on alike. -/
theorem after (h : s.Alike arrange s') (hc : c.Alike c') (hx : Climb.Comes x x')
    (a a' : RemoteShell.Answer) :
    Traffic.Alike arrange (s.after c (c.told a) x) (s'.after c' (c'.told a') x') := by
  obtain ⟨hcaller, hcell, -⟩ := hc.frame
  refine ⟨hx.engine, fun id => ?_, ?_⟩
  · obtain ⟨e, y⟩ := x
    obtain ⟨e', y'⟩ := x'
    cases hx.progress with
    | waits hd =>
      simp only [Traffic.after, hcaller]
      by_cases hid : id = c.caller
      · rw [hid, Assoc.get?_put_self, Assoc.get?_put_self]
        exact .some hd
      · rw [Assoc.get?_put_of_ne _ _ hid, Assoc.get?_put_of_ne _ _ hid]
        exact h.calls id
    | ends r =>
      simp only [Traffic.after, hcaller]
      exact h.erase c.caller id
  · simp only [Traffic.after, List.filterMap_append, List.filterMap_map, Function.comp_def]
    rw [h.journal]
    exact congrArg (· ++ _) (hx.sights_eq hcaller hcell a a')

/-- A call comes. -/
theorem call (h : s.Alike arrange s') (id : CallId) (key : Login) (command : String)
    (timeout : Duration) (on : Option ConnId) :
    Option.Rel (Traffic.Alike arrange) (s.step (.call id key command timeout on))
      (s'.step (.call id key command timeout on)) := by
  have hhas : s'.calls.has id = s.calls.has id := isSome_eq_of_rel (h.calls id)
  have harrive : Climb.arrive id key command timeout on s'.engine =
      Climb.arrive id key command timeout on s.engine := by
    rw [← Climb.arrive_redacted, ← h.engine, Climb.arrive_redacted]
  rw [Traffic.step, Traffic.step, hhas, harrive]
  split
  · exact .none
  · exact .some (h.after (.queued _ rfl) (.start id key command timeout on h.engine)
      .admitted .admitted)

/-- The wait of a call is over, and what it hears is up to its company. -/
theorem answer (h : s.Alike arrange s') {id : CallId} (hget : s.calls.get? id = some c)
    (hget' : s'.calls.get? id = some c') (hc : c.Alike c') {company company' : Company}
    (hcompany : company.Alike company') :
    Option.Rel (Traffic.Alike arrange) (s.step (.answer id (company.answer c.question?).1))
      (s'.step (.answer id (company'.answer c'.question?).1)) ∧
      (company.answer c.question?).2.Alike (company'.answer c'.question?).2 := by
  rw [Traffic.step, Traffic.step, hget, hget', Option.bind_some, Option.bind_some]
  obtain ⟨caller, key, command, timeout, on, cell, phase⟩ := c
  have halike := hc
  cases hc with
  | queued hqueued =>
    obtain rfl : phase = .queued := hqueued
    have hadmitted := Climb.admitted_eq_of_redacted
      ⟨caller, key, command, timeout, on, cell, .queued⟩ h.engine
    refine ⟨rel_ite (iff_of_eq (congrArg (· = true) hadmitted.symm)) fun _ => ?_, hcompany⟩
    exact h.after halike (.begin _ .queued h.engine) .admitted .admitted
  | @talking t t' htalking ht =>
    obtain rfl : phase = .talking t := htalking
    cases t with
    | done y =>
      cases ht
      exact ⟨.none, hcompany⟩
    | ask q next =>
      obtain ⟨q', next', rfl⟩ := ht.exists_ask
      obtain ⟨hnext, htold⟩ := ht.tell hcompany
      refine ⟨rel_ite (iff_of_true ?_ ?_) fun _ => ?_, htold⟩
      · exact congrArg Option.isSome (q.take?_give _)
      · exact congrArg Option.isSome (q'.take?_give _)
      · simp only [Climb.resume, Climb.question?, Company.answer, Query.take?_give]
        exact h.after halike (.follow _ _ hnext h.engine) _ _

/-- Something that depends on a call, in both or in none. -/
theorem ofCall (h : s.Alike arrange s') (id : CallId) {α : Type} {R : α → α → Prop}
    {f g : Climb → Option α}
    (hfg : ∀ c c', s.calls.get? id = some c → s'.calls.get? id = some c' → c.Alike c' →
      Option.Rel R (f c) (g c')) :
    Option.Rel R ((s.calls.get? id).bind f) ((s'.calls.get? id).bind g) := by
  have hcalls := h.calls id
  generalize hget : s.calls.get? id = call at hcalls ⊢
  generalize hget' : s'.calls.get? id = call' at hcalls ⊢
  cases hcalls with
  | none => exact .none
  | some hc => exact hfg _ _ hget hget' hc

/-- A call is given up. -/
theorem abandon (h : s.Alike arrange s') {id : CallId} (hget : s.calls.get? id = some c)
    (hget' : s'.calls.get? id = some c') (hc : c.Alike c') :
    Option.Rel (Traffic.Alike arrange) (s.step (.abandon id)) (s'.step (.abandon id)) := by
  rw [Traffic.step, Traffic.step, hget, hget', Option.map_some, Option.map_some]
  refine .some ⟨?_, h.erase id, h.journal⟩
  have hrelease : c'.release s'.engine = c.release s'.engine := by
    rw [hc.frame.2.2]
    rfl
  change (c.release s.engine).redacted = (c'.release s'.engine).redacted
  rw [hrelease, ← Climb.release_redacted, h.engine, Climb.release_redacted]

/-- The profiles of a host are forgotten. -/
theorem clear (h : s.Alike arrange s') (host : Option String) :
    (s.engine.clear host).1 = (s'.engine.clear host).1 ∧
      Option.Rel (Traffic.Alike arrange) (s.step (.clear host)) (s'.step (.clear host)) := by
  have hclear : ((s.engine.clear host).1, (s.engine.clear host).2.redacted) =
      ((s'.engine.clear host).1, (s'.engine.clear host).2.redacted) := by
    rw [← Engine.clear_redacted, h.engine, Engine.clear_redacted]
  obtain ⟨hcount, hengine⟩ := Prod.mk.inj hclear
  exact ⟨hcount, .some ⟨hengine, h.calls, h.journal⟩⟩

end Traffic.Alike

/-! ## Scenes -/

/-- **Scenes that differ in passwords**, and look the same. -/
structure Scene.Alike (arrange : List Method → List Method) (s s' : Scene) : Prop where
  traffic : s.traffic.Alike arrange s'.traffic
  company : s.company.Alike s'.company
  surveys : s.surveys = s'.surveys

namespace Scene.Alike

variable {arrange : List Method → List Method} {s s' : Scene}

/-- **A cue keeps scenes alike**, and makes sense in both or in none. -/
theorem step (h : s.Alike arrange s') (cue : Cue) :
    Option.Rel (Scene.Alike arrange) (s.step cue) (s'.step cue) := by
  cases cue with
  | call id key command timeout on =>
    exact rel_map (h.traffic.call id key command timeout on) fun _ _ ht => { h with traffic := ht }
  | proceed id =>
    refine h.traffic.ofCall id fun c c' hget hget' hc => ?_
    obtain ⟨hstep, hcompany⟩ := h.traffic.answer hget hget' hc h.company
    exact rel_map hstep fun _ _ ht => ⟨ht, hcompany, h.surveys⟩
  | abandon id carried =>
    refine h.traffic.ofCall id fun c c' hget hget' hc => ?_
    obtain ⟨-, hcompany⟩ := h.traffic.answer hget hget' hc h.company
    refine rel_map (h.traffic.abandon hget hget' hc) fun _ _ ht => ⟨ht, ?_, h.surveys⟩
    cases carried with
    | true => exact hcompany
    | false => exact h.company
  | clear host =>
    obtain ⟨hcount, hstep⟩ := h.traffic.clear host
    rw [Scene.step, Scene.step, hcount, h.surveys]
    exact rel_map hstep fun _ _ ht => ⟨ht, h.company, rfl⟩
  | look key =>
    have hsummary : s.traffic.engine.summary? key = s'.traffic.engine.summary? key := by
      rw [← Engine.summary?_redacted, h.traffic.engine, Engine.summary?_redacted]
    refine .some ⟨h.traffic, h.company, ?_⟩
    rw [hsummary, h.surveys]

/-- **Cues keep scenes alike.** -/
theorem run (h : s.Alike arrange s') (cues : List Cue) :
    Option.Rel (Scene.Alike arrange) (s.run cues) (s'.run cues) := by
  induction cues generalizing s s' with
  | nil => exact .some h
  | cons cue cues ih =>
    exact rel_bind (h.step cue) fun _ _ h => ih h

theorem shows_eq (h : s.Alike arrange s') : s.shows arrange = s'.shows arrange := by
  rw [Scene.shows, Scene.shows, h.traffic.journal, h.surveys]

end Scene.Alike

/-- **Passwords stay out of sight**: engines in companies that differ in passwords show the same,
whatever happens on them and however sets are arranged in descriptions. -/
theorem shows_eq_of_alike (settings : ElevationSettings) {c c' : Company} (h : c.Alike c')
    (cues : List Cue) (arrange : List Method → List Method) :
    ((Scene.begin settings c).run cues).map (Scene.shows arrange) =
      ((Scene.begin settings c').run cues).map (Scene.shows arrange) := by
  have hbegin : (Scene.begin settings c).Alike arrange (Scene.begin settings c') :=
    ⟨.idle settings, h, rfl⟩
  exact map_eq_of_rel (hbegin.run cues) fun _ _ h => h.shows_eq

/-- A host on which the user may elevate with a password, and an operator who knows it. -/
def knowing (password : String) : Company where
  replies n := .ok ([⟨"deploy\n", "", 0⟩, ⟨"deploy wheel\n", "", 0⟩, ⟨"/usr/bin/sudo\n", "", 0⟩,
    ⟨"", "", 1⟩, ⟨"", "", 1⟩, ⟨"", "sudo: a password is required\n", 1⟩, ⟨"root\n", "", 0⟩,
    ⟨"uid=0(root)\n", "", 0⟩][n]?.getD ⟨"", "", 1⟩)
  replied := 0
  words _ := some password
  said := 0
  vault := ⟨true, []⟩

/-- One call to its end, and a look at what is known then. -/
def oneCall : List Cue :=
  .call 0 ⟨"deploy", "db-01", 22⟩ "id" (.ofSecs 30) none ::
    (List.replicate 11 (.proceed 0) ++ [.look ⟨"deploy", "db-01", 22⟩])

theorem shows_eq_for_two_operators :
    (knowing "s3cret").Alike (knowing "hunter2") ∧
      ((Scene.begin ⟨.ofSecs 10, .ofSecs 10⟩ (knowing "s3cret")).run oneCall).map
          Scene.surveys =
        some [.known (some ⟨"deploy", false, ["wheel"], [.sudoPassword], [], [.sudoPassword]⟩)] ∧
      ((Scene.begin ⟨.ofSecs 10, .ofSecs 10⟩ (knowing "s3cret")).run oneCall).map
          (Scene.shows id) =
        ((Scene.begin ⟨.ofSecs 10, .ofSecs 10⟩ (knowing "hunter2")).run oneCall).map
          (Scene.shows id) := by
  have hwords : (some "s3cret").map String.isEmpty = (some "hunter2").map String.isEmpty := by
    decide
  have halike : (knowing "s3cret").Alike (knowing "hunter2") :=
    ⟨rfl, rfl, fun _ => hwords, rfl, rfl, fun _ => rfl⟩
  exact ⟨halike, by decide +kernel, shows_eq_of_alike _ halike oneCall id⟩

end RemoteShell.Elevation
