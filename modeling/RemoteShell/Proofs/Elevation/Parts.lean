import Mathlib.Logic.Function.Basic
import RemoteShell.Proofs.Elevation.Crashes
import RemoteShell.Proofs.Elevation.Marks

/-!
# The parts of a call

What a call does with a method is its part in the call.  The operator may be asked for a password,
the method may be checked, and the command may be run with it, in this order and each of them at
most once; nothing else is seen of it.  A method is passed over, or it qualifies and runs the
command, or its part breaks the call, and which of them it is can be told from the part.

A call goes on to the next method only if it passes one over.  So the first method that qualifies
runs the command, and those after it have no part.

## Main definitions

* `Act`, `agenda`, `Shows`: what others see of a call, and all of it in order
* `Source`, `Qualified`: where a password comes from, and a method that gets so far as to run the
  command
* `PassedOver`, `RunsCommand`, `Breaks`: what the part of a method may be
* `Course`: a call, part by part

## Main results

* `PassedOver.not_qualifies`: a method that is passed over does not qualify
* `Course.shows`, `Course.first`: what is seen of a call, and which method runs the command
-/

namespace RemoteShell.Elevation

/-- A question with its answer. -/
abbrev Exchange : Type := (q : Query) × q.Answer

variable {key : Login} {p : Profile} {m : Method} {o : Outcome} {password : Option String}
  {command : String} {timeout limit : Duration} {l : List Exchange} {x : Ending} {r : Reply}
  {a : Except Fault Reply}

/-! ## What others see -/

/-- How far a method has come. -/
inductive Stage where
  | prompting
  | checking
  | running
  deriving DecidableEq, Repr

/-- What others see of a call: the operator is asked for the password of a method, or a command is
sent that was built with it. -/
structure Act where
  method : Method
  stage : Stage
  deriving DecidableEq, Repr

/-- **All acts about some methods**, in order: each of them is asked for, checked and run. -/
def agenda (ms : List Method) : List Act :=
  ms.flatMap fun m => [⟨m, .prompting⟩, ⟨m, .checking⟩, ⟨m, .running⟩]

/-- A question that others see: a request to the host, or a prompt. -/
def Query.seen : Query → Bool
  | .run _ | .prompt _ => true
  | _ => false

/-- The act that a question is, on behalf of a user. -/
def Query.act? (key : Login) (user : String) : Query → Option Act
  | .run (.check m ..) => some ⟨m, .checking⟩
  | .run (.elevated m ..) => some ⟨m, .running⟩
  | .prompt message =>
    (Method.order.find? fun m => promptText key m user = message).map (⟨·, .prompting⟩)
  | _ => none

/-- **What others see** of some questions is these acts, and nothing besides. -/
def Shows (key : Login) (user : String) (l : List Exchange) (as : List Act) : Prop :=
  (l.filter fun y => y.1.seen).map (fun y => y.1.act? key user) = as.map some

/-- Others see nothing of it. -/
def Quiet (l : List Exchange) : Prop := ∀ y ∈ l, y.1.seen = false

section Shows

variable {user : String} {l l' : List Exchange} {as as' : List Act}

theorem Shows.append (h : Shows key user l as) (h' : Shows key user l' as') :
    Shows key user (l ++ l') (as ++ as') := by
  rw [Shows] at h h' ⊢
  rw [List.filter_append, List.map_append, List.map_append, h, h']

theorem Shows.cons {y : Exchange} {a : Act} (hy : y.1.seen = true)
    (ha : y.1.act? key user = some a) (h : Shows key user l as) :
    Shows key user (y :: l) (a :: as) := by
  rw [Shows] at h ⊢
  rw [List.filter_cons, if_pos hy, List.map_cons, List.map_cons, ha, h]

theorem Quiet.shows (h : Quiet l) : Shows key user l [] := by
  have hnone : (l.filter fun y => y.1.seen) = [] :=
    List.filter_eq_nil_iff.mpr fun y hy => by simp [h y hy]
  rw [Shows, hnone]
  rfl

/-- A prompt says which method it is for. -/
theorem act?_prompt (key : Login) (m : Method) (user : String) :
    (Query.prompt (promptText key m user)).act? key user = some ⟨m, .prompting⟩ := by
  have hm : m ∈ Method.order := by cases m <;> decide
  rw [Query.act?]
  cases hfind : Method.order.find? fun l => promptText key l user = promptText key m user with
  | none => simpa using List.find?_eq_none.mp hfind m hm
  | some l =>
    have hl : promptText key l user = promptText key m user := by
      simpa using List.find?_some hfind
    rw [eq_of_promptText_eq hl]
    rfl

/-- A check is one act, and so is a run; nothing else is seen of what follows. -/
theorem shows_check (h : Quiet l) (user : String) (a : Except Fault Reply) :
    Shows key user (⟨.run (.check m password limit), a⟩ :: l) [⟨m, .checking⟩] :=
  h.shows.cons rfl rfl

theorem shows_run (h : Quiet l) (user : String) (a : Except Fault Reply) :
    Shows key user (⟨.run (.elevated m password command timeout), a⟩ :: l) [⟨m, .running⟩] :=
  h.shows.cons rfl rfl

end Shows

/-! ## What becomes of a method -/

/-- **A check is refused**: it does not come back in time, or its reply does not name the
superuser. -/
def Refuses (m : Method) : Except Fault Reply → Outcome → Prop
  | .error f, o => f.kind = .commandTimeout ∧ o = .timedOut
  | .ok r, o => FailsCheck m (.ok r) ∧ o = if m.needsPassword then .wrongPassword else .rejected

/-- The host offers a method, and it did not fail before. -/
def Eligible (p : Profile) (m : Method) : Prop := p.offers m = true ∧ m ∉ p.failed

/-- **Where the password of a method comes from**, if it asks for one: from the profile, else from
the stored secrets, else from the operator. -/
inductive Source (key : Login) (p : Profile) (m : Method) : Option String → List Exchange → Prop
  | unneeded (free : m.needsPassword = false) : Source key p m none []
  | known {s : String} (asks : m.needsPassword = true) (known : p.passwords.get? m = some s) :
      Source key p m (some s) []
  | stored {s : String} (asks : m.needsPassword = true) (unknown : p.passwords.get? m = none) :
      Source key p m (some s) [⟨.fetch (secretName key m p.user), some s⟩]
  | given {s : String} (asks : m.needsPassword = true) (unknown : p.passwords.get? m = none)
      (nonempty : s ≠ "") : Source key p m (some s)
        [⟨.fetch (secretName key m p.user), none⟩,
          ⟨.prompt (promptText key m p.user), some s⟩]

/-- **A method qualifies** with a password: it is offered and not marked failed, it has a password
if it asks for one, and it has passed its check before or passes it now. -/
inductive Qualified (limit : Duration) (key : Login) (p : Profile) (m : Method) :
    Option String → List Exchange → Prop
  | verified {password : Option String} {source : List Exchange} (eligible : Eligible p m)
      (has : Source key p m password source) (verified : m ∈ p.verified) :
      Qualified limit key p m password source
  | checked {password : Option String} {source notes : List Exchange} {r : Reply}
      (eligible : Eligible p m) (has : Source key p m password source)
      (unverified : m ∉ p.verified) (passes : NamesRoot m r) (quiet : Quiet notes) :
      Qualified limit key p m password
        (source ++ ⟨.run (.check m password limit), .ok r⟩ :: notes)

/-- **A method is passed over**, and why. -/
inductive PassedOver (limit : Duration) (key : Login) (p : Profile) (m : Method) :
    Outcome → List Exchange → Prop
  | unavailable (missing : p.offers m = false) : PassedOver limit key p m .unavailable []
  | previouslyFailed (offered : p.offers m = true) (failed : m ∈ p.failed) :
      PassedOver limit key p m .previouslyFailed []
  | declined {said : Option String} (eligible : Eligible p m) (asks : m.needsPassword = true)
      (unknown : p.passwords.get? m = none) (declines : said = none ∨ said = some "") :
      PassedOver limit key p m .declined
        [⟨.fetch (secretName key m p.user), none⟩, ⟨.prompt (promptText key m p.user), said⟩]
  | refused {o : Outcome} {password : Option String} {source notes : List Exchange}
      {a : Except Fault Reply} (eligible : Eligible p m) (has : Source key p m password source)
      (unverified : m ∉ p.verified) (refuses : Refuses m a o) (quiet : Quiet notes) :
      PassedOver limit key p m o (source ++ ⟨.run (.check m password limit), a⟩ :: notes)

/-- **A method that qualifies runs the command**, and its reply is cleaned. -/
def RunsCommand (limit : Duration) (key : Login) (command : String) (timeout : Duration)
    (p : Profile) (m : Method) (r : Reply) (part : List Exchange) : Prop :=
  ∃ password before raw after,
    part = before ++ ⟨.run (.elevated m password command timeout), .ok raw⟩ :: after ∧
      Qualified limit key p m password before ∧ cleanedReply? m raw = some r ∧ Quiet after

/-- **A method breaks the call**: its check or the command prints what cannot be cleaned. -/
inductive Breaks (limit : Duration) (key : Login) (command : String) (timeout : Duration)
    (p : Profile) (m : Method) : List Exchange → Prop
  | checking {password : Option String} {source : List Exchange} {a : Except Fault Reply}
      (eligible : Eligible p m) (has : Source key p m password source)
      (unverified : m ∉ p.verified) (garbles : (Errand.check m password limit).Garbles a) :
      Breaks limit key command timeout p m (source ++ [⟨.run (.check m password limit), a⟩])
  | running {password : Option String} {before : List Exchange} {a : Except Fault Reply}
      (qualified : Qualified limit key p m password before)
      (garbles : (Errand.elevated m password command timeout).Garbles a) :
      Breaks limit key command timeout p m
        (before ++ [⟨.run (.elevated m password command timeout), a⟩])

/-- Somewhere in its part a method qualifies. -/
def Qualifies (limit : Duration) (key : Login) (p : Profile) (m : Method) (part : List Exchange) :
    Prop :=
  ∃ password before after, part = before ++ after ∧ Qualified limit key p m password before

/-- **The course of a call**, part by part.  The first method that qualifies runs the command, and
those after it have no part in the call; if none qualifies, the call says of each of them why. -/
inductive Course (limit : Duration) (key : Login) (command : String) (timeout : Duration)
    (p : Profile) (part : Method → List Exchange) : List Method → List Attempt → Ending → Prop
  | runs {before after : List Method} {m : Method} {passed : List Attempt} {r : Reply}
      (passes : ∀ l ∈ before, ∃ o, PassedOver limit key p l o (part l))
      (runs : RunsCommand limit key command timeout p m r (part m))
      (rest : ∀ l ∈ after, part l = []) :
      Course limit key command timeout p part (before ++ m :: after) passed
        (.finished (.ok ⟨r, some m⟩))
  | unavailable {ms : List Method} {passed : List Attempt} (why : Method → Outcome)
      (passes : ∀ m ∈ ms, PassedOver limit key p m (why m) (part m)) :
      Course limit key command timeout p part ms passed (.finished (.error
        (.elevationUnavailable key.host (passed ++ ms.map fun m => ⟨m, why m⟩))))
  | breaks {before after : List Method} {m : Method} {passed : List Attempt}
      (passes : ∀ l ∈ before, ∃ o, PassedOver limit key p l o (part l))
      (breaks : Breaks limit key command timeout p m (part m))
      (rest : ∀ l ∈ after, part l = []) :
      Course limit key command timeout p part (before ++ m :: after) passed .crashed

/-! ### A method that is passed over does not qualify -/

/-- What is asked first tells one source from another. -/
theorem Source.eq {password' : Option String} {source source' more more' : List Exchange}
    (h : Source key p m password source) (h' : Source key p m password' source')
    (hsame : source ++ more = source' ++ more') : source = source' := by
  cases h <;> cases h' <;> simp_all

/-- Who declines gives no password. -/
theorem Source.not_declined {said : Option String} {source more : List Exchange}
    (h : Source key p m password source) (asks : m.needsPassword = true)
    (unknown : p.passwords.get? m = none) (declines : said = none ∨ said = some "") :
    [⟨.fetch (secretName key m p.user), none⟩, ⟨.prompt (promptText key m p.user), said⟩] ≠
      source ++ more := by
  intro hsame
  cases h with
  | unneeded free => simp [asks] at free
  | known _ known => simp [unknown] at known
  | stored => simp at hsame
  | given _ _ nonempty =>
    simp only [List.cons_append, List.cons.injEq, Sigma.mk.injEq, heq_eq_eq, true_and] at hsame
    rcases declines with rfl | rfl
    · simp at hsame
    · exact nonempty (Option.some.inj hsame.1).symm

/-- A check that is refused does not pass. -/
theorem Refuses.not_passes (h : Refuses m (.ok r) o) : ¬ NamesRoot m r := by
  rintro ⟨hsuccess, out, hclean, hroot⟩
  rcases h.1 with hfails | ⟨out', hclean', hnot⟩
  · exact hfails hsuccess
  · rw [hclean, Option.some.injEq] at hclean'
    exact hnot (hclean' ▸ hroot)

/-- **A method that is passed over does not qualify.** -/
theorem PassedOver.not_qualifies {part : List Exchange} (h : PassedOver limit key p m o part) :
    ¬ Qualifies limit key p m part := by
  rintro ⟨password, before, after, hpart, hqualified⟩
  have heligible : Eligible p m := by cases hqualified <;> assumption
  cases h with
  | unavailable missing => exact absurd heligible.1 (by simp [missing])
  | previouslyFailed _ failed => exact heligible.2 failed
  | declined _ asks unknown declines =>
    cases hqualified with
    | verified _ has => exact has.not_declined asks unknown declines hpart
    | checked _ has =>
      rw [List.append_assoc] at hpart
      exact has.not_declined asks unknown declines hpart
  | refused _ has unverified refuses =>
    cases hqualified with
    | verified _ _ verified => exact unverified verified
    | checked _ has' _ passes =>
      rw [List.append_assoc] at hpart
      obtain rfl := has.eq has' hpart
      have hcheck := (List.cons.inj (List.append_cancel_left hpart)).1
      simp only [Sigma.mk.injEq, Query.run.injEq, Errand.check.injEq] at hcheck
      obtain ⟨⟨-, rfl, -⟩, hreply⟩ := hcheck
      obtain rfl := eq_of_heq hreply
      exact refuses.not_passes passes

/-! ## What is seen of a part -/

theorem Source.shows {source : List Exchange} (h : Source key p m password source) :
    ∃ as, Shows key p.user source as ∧ as.Sublist [⟨m, .prompting⟩] := by
  cases h with
  | unneeded => exact ⟨[], rfl, List.nil_sublist _⟩
  | known => exact ⟨[], rfl, List.nil_sublist _⟩
  | stored => exact ⟨[], rfl, List.nil_sublist _⟩
  | given => exact ⟨[_], congrArg (fun a => [a]) (act?_prompt key m p.user), .refl _⟩

theorem Qualified.shows {part : List Exchange} (h : Qualified limit key p m password part) :
    ∃ as, Shows key p.user part as ∧ as.Sublist [⟨m, .prompting⟩, ⟨m, .checking⟩] := by
  cases h with
  | verified _ has =>
    obtain ⟨as, hshows, has⟩ := has.shows
    exact ⟨as, hshows, has.trans (List.sublist_append_left [_] [_])⟩
  | checked _ has _ _ quiet =>
    obtain ⟨as, hshows, has⟩ := has.shows
    exact ⟨as ++ [⟨m, .checking⟩], hshows.append (shows_check quiet p.user _),
      has.append (.refl _)⟩

theorem PassedOver.shows {part : List Exchange} (h : PassedOver limit key p m o part) :
    ∃ as, Shows key p.user part as ∧ as.Sublist [⟨m, .prompting⟩, ⟨m, .checking⟩] := by
  cases h with
  | unavailable => exact ⟨[], rfl, List.nil_sublist _⟩
  | previouslyFailed => exact ⟨[], rfl, List.nil_sublist _⟩
  | declined =>
    refine ⟨[⟨m, .prompting⟩], congrArg (fun a => [a]) (act?_prompt key m p.user), ?_⟩
    exact List.sublist_append_left [_] [_]
  | refused _ has _ _ quiet =>
    obtain ⟨as, hshows, has⟩ := has.shows
    exact ⟨as ++ [⟨m, .checking⟩], hshows.append (shows_check quiet p.user _),
      has.append (.refl _)⟩

theorem RunsCommand.shows {part : List Exchange}
    (h : RunsCommand limit key command timeout p m r part) :
    ∃ as, Shows key p.user part (as ++ [⟨m, .running⟩]) ∧
      as.Sublist [⟨m, .prompting⟩, ⟨m, .checking⟩] := by
  obtain ⟨password, before, raw, after, rfl, hqualified, -, quiet⟩ := h
  obtain ⟨as, hshows, has⟩ := hqualified.shows
  exact ⟨as, hshows.append (shows_run quiet p.user _), has⟩

theorem Breaks.shows {part : List Exchange} (h : Breaks limit key command timeout p m part) :
    ∃ as, Shows key p.user part as ∧
      as.Sublist [⟨m, .prompting⟩, ⟨m, .checking⟩, ⟨m, .running⟩] := by
  have hquiet : Quiet [] := List.forall_mem_nil _
  cases h with
  | checking _ has =>
    obtain ⟨as, hshows, has⟩ := has.shows
    refine ⟨as ++ [⟨m, .checking⟩], hshows.append (shows_check hquiet p.user _), ?_⟩
    exact (has.append (.refl _)).trans (List.sublist_append_left [_, _] [_])
  | running qualified =>
    obtain ⟨as, hshows, has⟩ := qualified.shows
    exact ⟨as ++ [⟨m, .running⟩], hshows.append (shows_run hquiet p.user _), has.append (.refl _)⟩

/-- No command is run where a method is at most asked for and checked. -/
theorem filter_running_eq_nil {as : List Act}
    (h : as.Sublist [⟨m, .prompting⟩, ⟨m, .checking⟩]) :
    as.filter (·.stage = .running) = [] :=
  List.sublist_nil.mp (h.filter _)

/-- No command is run by methods that are passed over. -/
theorem shows_passedOver {ms : List Method} {part : Method → List Exchange}
    (h : ∀ m ∈ ms, ∃ o, PassedOver limit key p m o (part m)) :
    ∃ as, Shows key p.user (ms.flatMap part) as ∧ as.Sublist (agenda ms) ∧
      as.filter (·.stage = .running) = [] := by
  induction ms with
  | nil => exact ⟨[], rfl, .refl _, rfl⟩
  | cons m ms ih =>
    obtain ⟨⟨o, hm⟩, hms⟩ := List.forall_mem_cons.mp h
    obtain ⟨as, hshows, has⟩ := hm.shows
    obtain ⟨as', hshows', has', hnone⟩ := ih hms
    refine ⟨as ++ as', hshows.append hshows', ?_, ?_⟩
    · exact (has.trans (List.sublist_append_left [_, _] [_])).append has'
    · rw [List.filter_append, filter_running_eq_nil has, hnone]
      rfl

/-- Methods without a part in the call. -/
theorem flatMap_eq_nil {ms : List Method} {part : Method → List Exchange}
    (h : ∀ m ∈ ms, part m = []) : ms.flatMap part = [] :=
  List.flatMap_eq_nil_iff.mpr h

/-- **What is seen of a call**: acts in order, and one run of the command or none. -/
theorem Course.shows {part : Method → List Exchange} {ms : List Method} {passed : List Attempt}
    (h : Course limit key command timeout p part ms passed x) :
    ∃ as, Shows key p.user (ms.flatMap part) as ∧ as.Sublist (agenda ms) ∧
      (∀ r m, x = .finished (.ok ⟨r, some m⟩) →
        as.filter (·.stage = .running) = [⟨m, .running⟩]) ∧
      ∀ f, x = .finished (.error f) → as.filter (·.stage = .running) = [] := by
  cases h with
  | @runs before after m passed r passes runs rest =>
    obtain ⟨as, hshows, has, hnone⟩ := shows_passedOver passes
    obtain ⟨as', hshows', has'⟩ := runs.shows
    have hall : Shows key p.user ((before ++ m :: after).flatMap part)
        (as ++ (as' ++ [⟨m, .running⟩])) := by
      rw [List.flatMap_append, List.flatMap_cons, flatMap_eq_nil rest, List.append_nil]
      exact hshows.append hshows'
    refine ⟨_, hall, ?_, ?_, by rintro f ⟨⟩⟩
    · rw [agenda, List.flatMap_append, List.flatMap_cons]
      refine has.append ((has'.append (.refl _)).trans ?_)
      exact List.sublist_append_left [_, _, _] _
    · rintro r' m' hx
      cases hx
      rw [List.filter_append, List.filter_append, hnone, filter_running_eq_nil has']
      rfl
  | unavailable why passes =>
    obtain ⟨as, hshows, has, hnone⟩ := shows_passedOver fun m hm => ⟨why m, passes m hm⟩
    exact ⟨as, hshows, has, by rintro r m ⟨⟩, fun _ _ => hnone⟩
  | @breaks before after m passed passes breaks rest =>
    obtain ⟨as, hshows, has, -⟩ := shows_passedOver passes
    obtain ⟨as', hshows', has'⟩ := breaks.shows
    have hall : Shows key p.user ((before ++ m :: after).flatMap part) (as ++ as') := by
      rw [List.flatMap_append, List.flatMap_cons, flatMap_eq_nil rest, List.append_nil]
      exact hshows.append hshows'
    refine ⟨_, hall, ?_, by rintro r m ⟨⟩, by rintro f ⟨⟩⟩
    rw [agenda, List.flatMap_append, List.flatMap_cons]
    exact has.append (has'.trans (List.sublist_append_left [_, _, _] _))

/-- **The command is run by the first method that qualifies**, and not at all if none does. -/
theorem Course.first {part : Method → List Exchange} {ms : List Method} {passed : List Attempt}
    (h : Course limit key command timeout p part ms passed x) :
    (∀ r m, x = .finished (.ok ⟨r, some m⟩) → Qualifies limit key p m (part m) ∧
      ∃ before after, ms = before ++ m :: after ∧
        ∀ l ∈ before, ¬ Qualifies limit key p l (part l)) ∧
      ∀ f, x = .finished (.error f) → ∀ m ∈ ms, ¬ Qualifies limit key p m (part m) := by
  cases h with
  | @runs before after m passed r passes runs rest =>
    refine ⟨fun r' m' hx => ?_, by rintro f ⟨⟩⟩
    cases hx
    obtain ⟨password, source, raw, notes, hpart, hqualified, -⟩ := runs
    refine ⟨⟨password, source, _, hpart, hqualified⟩, before, after, rfl, fun l hl => ?_⟩
    obtain ⟨o, ho⟩ := passes l hl
    exact ho.not_qualifies
  | unavailable why passes =>
    exact ⟨by rintro r m ⟨⟩, fun _ _ m hm => (passes m hm).not_qualifies⟩
  | breaks => exact ⟨by rintro r m ⟨⟩, by rintro f ⟨⟩⟩

/-- A method that is passed over comes before the others. -/
theorem Course.cons {part : Method → List Exchange} {ms : List Method} {passed : List Attempt}
    {first : List Exchange} (hfirst : PassedOver limit key p m o first) (hm : m ∉ ms)
    (h : Course limit key command timeout p part ms (passed ++ [⟨m, o⟩]) x) :
    Course limit key command timeout p (Function.update part m first) (m :: ms) passed x := by
  have hself : Function.update part m first m = first := Function.update_self ..
  have hother {l : Method} (hl : l ∈ ms) : Function.update part m first l = part l :=
    Function.update_of_ne (ne_of_mem_of_not_mem hl hm) ..
  -- What is said of the methods before the one that ends the call, and of those after it.
  have hpasses {ls : List Method} (hls : ls ⊆ ms)
      (passes : ∀ l ∈ ls, ∃ o, PassedOver limit key p l o (part l)) :
      ∀ l ∈ m :: ls, ∃ o, PassedOver limit key p l o (Function.update part m first l) :=
    List.forall_mem_cons.mpr ⟨⟨o, hself.symm ▸ hfirst⟩,
      fun l hl => (hother (hls hl)).symm ▸ passes l hl⟩
  have hrest {ls : List Method} (hls : ls ⊆ ms) (rest : ∀ l ∈ ls, part l = []) :
      ∀ l ∈ ls, Function.update part m first l = [] :=
    fun l hl => (hother (hls hl)).trans (rest l hl)
  cases h with
  | @runs before after n _ r passes runs rest =>
    have hruns : RunsCommand limit key command timeout p n r (Function.update part m first n) :=
      (hother (List.mem_append_right _ List.mem_cons_self)).symm ▸ runs
    exact .runs (hpasses (List.subset_append_left ..) passes) hruns
      (hrest (fun l hl => List.mem_append_right _ (List.mem_cons_of_mem n hl)) rest)
  | unavailable why passes =>
    have hattempts : passed ++ [⟨m, o⟩] ++ ms.map (fun l => ⟨l, why l⟩) =
        passed ++ (m :: ms).map fun l => ⟨l, Function.update why m o l⟩ := by
      rw [List.append_assoc, List.map_cons, Function.update_self, List.singleton_append]
      refine congrArg (fun as => passed ++ (⟨m, o⟩ : Attempt) :: as) ?_
      refine List.map_congr_left fun l hl => ?_
      rw [Function.update_of_ne (ne_of_mem_of_not_mem hl hm)]
    rw [hattempts]
    refine .unavailable _ (List.forall_mem_cons.mpr ⟨?_, fun l hl => ?_⟩)
    · rw [hself, Function.update_self]
      exact hfirst
    · rw [hother hl, Function.update_of_ne (ne_of_mem_of_not_mem hl hm)]
      exact passes l hl
  | @breaks before after n _ passes breaks rest =>
    have hbreaks : Breaks limit key command timeout p n (Function.update part m first n) :=
      (hother (List.mem_append_right _ List.mem_cons_self)).symm ▸ breaks
    exact .breaks (hpasses (List.subset_append_left ..) passes) hbreaks
      (hrest (fun l hl => List.mem_append_right _ (List.mem_cons_of_mem n hl)) rest)

end RemoteShell.Elevation
