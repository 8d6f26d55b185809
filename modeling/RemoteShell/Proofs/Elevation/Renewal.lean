import RemoteShell.Proofs.Elevation.Fallback
import RemoteShell.Proofs.Elevation.Trust

/-!
# Calls that find out everything anew

A call on a login without a profile goes by what it finds out itself.  It probes the login first;
the profile that it detects has no failed method, no method that has passed its check, and no
password.  So every method that the host offers gets its turn again, also one that failed before the
profile was forgotten, and no method runs the command unless it passes its check in this very call:
where the password comes from does not matter, and one that is stored is checked like any other.

## Main definitions

* `Profile.Untried`: nothing has been learned about any method
* `ChecksFirst`: the command is run elevated only after a check that passed
* `Reconsiders`: every method that the host offers gets its turn
* `Anew`: all that a call does without a profile

## Main results

* `path_detectWith`: the ways through a detection
* `checksFirst_tryMethods`: the loop over the methods checks first
* `anew_of_path`: a call on a login without a profile finds out everything anew
-/

namespace RemoteShell.Elevation

variable {key : Login} {p : Profile} {m : Method} {o : Outcome} {password : Option String}
  {command fallback : String} {timeout limit : Duration} {l l' : List Exchange} {x : Ending}
  {r : Reply} {settings : ElevationSettings}

/-! ## Detection -/

/-- **Nothing has been learned about any method**: none failed, none passed its check, and there is
no password. -/
def Profile.Untried (p : Profile) : Prop := p.failed = [] ∧ p.Blank

/-- A probe does not try a method. -/
theorem untried_record (q : Probe) (fallback : String) (hp : p.Untried) (a : Option Reply) :
    (q.record fallback p a).Untried := by
  refine ⟨Marked.failed_record q fallback hp.1 a, ?_⟩
  by_cases hq : q = .user
  · subst hq
    exact ⟨rfl, rfl⟩
  · exact (record_of_ne hq fallback p a).2 hp.2

/-- **A way through a detection**: probes are sent, and what they find out is no method tried. -/
theorem path_detectWith {qs : List Probe} {found : Except Fault Profile} (hp : p.Untried)
    (hpath : (detectWith fallback limit qs p).Path l found) :
    (∀ y ∈ l, ∃ q : Probe, y.1 = .run (.probe q.command limit)) ∧
      ∀ p', found = .ok p' → p'.Untried := by
  induction qs generalizing p l with
  | nil =>
    obtain ⟨rfl, rfl⟩ := Dialogue.path_done hpath
    exact ⟨List.forall_mem_nil _, fun p' hp' => Except.ok.inj hp' ▸ hp⟩
  | cons q qs ih =>
    rw [detectWith] at hpath
    split at hpath
    · obtain ⟨a, l, rfl, hanswered⟩ := Dialogue.path_ask hpath
      split at hanswered
      · obtain ⟨rfl, rfl⟩ := Dialogue.path_done hanswered
        exact ⟨List.forall_mem_singleton.mpr ⟨q, rfl⟩, fun p' hp' => by cases hp'⟩
      · next answer _ =>
        obtain ⟨hprobes, hfound⟩ := ih (untried_record q fallback hp answer) hanswered
        exact ⟨List.forall_mem_cons.mpr ⟨⟨q, rfl⟩, hprobes⟩, hfound⟩
    · exact ih hp hpath

/-! ## Checks before the command -/

/-- Nothing is run elevated. -/
def RunsNothing (l : List Exchange) : Prop :=
  ∀ m password command timeout a, ⟨.run (.elevated m password command timeout), a⟩ ∉ l

/-- **The command is run elevated only after a check that passed**: before that, `whoami` was run
with the same method and the same password, and its reply named the superuser. -/
def ChecksFirst (l : List Exchange) : Prop :=
  ∀ before m password command timeout a after,
    l = before ++ ⟨.run (.elevated m password command timeout), a⟩ :: after →
      ∃ limit r, ⟨.run (.check m password limit), .ok r⟩ ∈ before ∧ NamesRoot m r

theorem Quiet.runsNothing (h : Quiet l) : RunsNothing l :=
  fun _ _ _ _ _ hmem => absurd (h _ hmem) nofun

theorem Source.runsNothing (h : Source key p m password l) : RunsNothing l := by
  intro m password command timeout a hmem
  cases h <;> simp at hmem

namespace RunsNothing

theorem append (h : RunsNothing l) (h' : RunsNothing l') : RunsNothing (l ++ l') :=
  fun m password command timeout a hmem =>
    (List.mem_append.mp hmem).elim (h m password command timeout a)
      (h' m password command timeout a)

theorem cons {y : Exchange} (hy : ∀ m password command timeout,
    y.1 ≠ .run (.elevated m password command timeout)) (h : RunsNothing l) :
    RunsNothing (y :: l) := by
  intro m password command timeout a hmem
  rcases List.mem_cons.mp hmem with rfl | hmem
  · exact hy m password command timeout rfl
  · exact h m password command timeout a hmem

/-- Where nothing is run, nothing has to be checked. -/
theorem checksFirst (h : RunsNothing l) : ChecksFirst l := by
  rintro before m password command timeout a after rfl
  exact absurd (List.mem_append_right before List.mem_cons_self) (h m password command timeout a)

/-- A run of the command stands behind what runs nothing. -/
theorem exists_of_split (h : RunsNothing l) {before after : List Exchange} {a : Except Fault Reply}
    (hsplit : l ++ l' = before ++ ⟨.run (.elevated m password command timeout), a⟩ :: after) :
    ∃ more, before = l ++ more ∧
      l' = more ++ ⟨.run (.elevated m password command timeout), a⟩ :: after := by
  rcases List.append_eq_append_iff.mp hsplit with ⟨more, hbefore, hmore⟩ | ⟨more, rfl, hmore⟩
  · exact ⟨more, hbefore, hmore⟩
  · cases more with
    | nil => exact ⟨[], by simp, hmore.symm⟩
    | cons y more =>
      obtain ⟨rfl, -⟩ := List.cons.inj hmore
      exact absurd (List.mem_append_right before List.mem_cons_self) (h _ _ _ _ _)

/-- What comes before it does not matter, if nothing is run there. -/
theorem append_checksFirst (h : RunsNothing l) (h' : ChecksFirst l') : ChecksFirst (l ++ l') := by
  intro before m password command timeout a after hsplit
  obtain ⟨more, rfl, hmore⟩ := h.exists_of_split hsplit
  obtain ⟨limit, r, hmem, hroot⟩ := h' more m password command timeout a after hmore
  exact ⟨limit, r, List.mem_append_right l hmem, hroot⟩

/-- One run of the command, after a check that passed. -/
theorem checksFirst_of_run (h : RunsNothing l) (h' : RunsNothing l') {a : Except Fault Reply}
    (hcheck : ⟨.run (.check m password limit), .ok r⟩ ∈ l) (hroot : NamesRoot m r) :
    ChecksFirst (l ++ ⟨.run (.elevated m password command timeout), a⟩ :: l') := by
  intro before m' password' command' timeout' a' after hsplit
  obtain ⟨more, rfl, hmore⟩ := h.exists_of_split hsplit
  cases more with
  | nil =>
    cases hmore
    exact ⟨limit, r, List.mem_append_left [] hcheck, hroot⟩
  | cons y more =>
    obtain ⟨-, rfl⟩ := List.cons.inj hmore
    exact absurd (List.mem_append_right more List.mem_cons_self) (h' _ _ _ _ _)

end RunsNothing

/-- **The loop over the methods checks first**, as long as none of them has passed its check. -/
theorem checksFirst_tryMethods {ms : List Method} (hp : ∀ m ∈ ms, m ∉ p.verified)
    (passed : List Attempt)
    (hpath : (tryMethods limit key command timeout ms p passed).Path l x) : ChecksFirst l := by
  induction ms generalizing p passed l with
  | nil =>
    obtain ⟨rfl, rfl⟩ := Dialogue.path_done hpath
    exact RunsNothing.checksFirst fun _ _ _ _ _ => List.not_mem_nil
  | cons m ms ih =>
    obtain ⟨hm, hms⟩ := List.forall_mem_cons.mp hp
    rw [tryMethods] at hpath
    split at hpath
    · exact ih hms _ hpath
    split at hpath
    · exact ih hms _ hpath
    obtain ⟨source, rest, got, rfl, hgot, hrest⟩ := Dialogue.path_bind hpath
    rcases path_passwordFor hgot with ⟨password, rfl, hsource⟩ | ⟨rfl, -, -, said, -, rfl⟩
    · dsimp only at hrest
      rw [if_neg (mt List.contains_iff_mem.mp hm)] at hrest
      obtain ⟨check, rest, v, rfl, hcheck, hjudged⟩ := Dialogue.path_bind hrest
      obtain ⟨a, notes, rfl, quiet, hjudges⟩ := path_verify hcheck
      have hquiet : RunsNothing (source ++ ⟨.run (.check m password limit), a⟩ :: notes) :=
        hsource.runsNothing.append (quiet.runsNothing.cons (by simp))
      rw [← List.append_assoc]
      cases v with
      | trusted q =>
        obtain ⟨rfl, r, rfl, hroot⟩ := hjudges
        obtain ⟨a, after, rfl, quiet', -⟩ := exists_of_path_runWith hjudged
        exact hquiet.checksFirst_of_run quiet'.runsNothing
          (List.mem_append_right source List.mem_cons_self) hroot
      | failed q o =>
        obtain ⟨rfl, -⟩ := hjudges
        refine hquiet.append_checksFirst (ih (fun n hn hmem => ?_) _ hjudged)
        exact hms n hn (List.mem_filter.mp hmem).1
      | broken f =>
        obtain ⟨rfl, -⟩ := Dialogue.path_done hjudged
        exact (List.append_nil _).symm ▸ hquiet.checksFirst
      | unreadable =>
        obtain ⟨rfl, -⟩ := Dialogue.path_done hjudged
        exact (List.append_nil _).symm ▸ hquiet.checksFirst
    · have hquiet : RunsNothing [⟨.fetch (secretName key m p.user), none⟩,
          ⟨.prompt (promptText key m p.user), said⟩] := by
        intro m password command timeout a hmem
        simp at hmem
      exact hquiet.append_checksFirst (ih hms _ hrest)

/-! ## Calls without a profile -/

/-- **Every method that the host offers gets its turn**: the call goes through the methods in their
order, and if it passes one over that the host offers, it is not because the method failed before,
but for what comes of it now. -/
def Reconsiders (settings : ElevationSettings) (key : Login) (command : String)
    (timeout : Duration) (p : Profile) (l : List Exchange) (x : Ending) : Prop :=
  ∃ part : Method → List Exchange, l = Method.order.flatMap part ∧
    Course settings.verifyTimeout key command timeout p part Method.order [] x ∧
    ∀ m o, PassedOver settings.verifyTimeout key p m o (part m) →
      o ≠ .previouslyFailed ∧ (p.offers m = true → part m ≠ [])

/-- A method that has not been tried is not passed over because it failed before. -/
theorem PassedOver.of_untried (hp : p.Untried) (h : PassedOver limit key p m o l) :
    o ≠ .previouslyFailed ∧ (p.offers m = true → l ≠ []) := by
  cases h with
  | unavailable missing => exact ⟨nofun, fun hoffers => absurd (hoffers.symm.trans missing) nofun⟩
  | previouslyFailed _ failed =>
    rw [hp.1] at failed
    cases failed
  | declined => exact ⟨nofun, fun _ => nofun⟩
  | @refused _ _ _ _ a _ _ _ refuses =>
    refine ⟨?_, fun _ => List.append_ne_nil_of_right_ne_nil _ nofun⟩
    cases a with
    | error f =>
      rw [refuses.2]
      nofun
    | ok r =>
      rw [refuses.2]
      split <;> nofun

/-- **All that a call does without a profile.**  Its first question is what user it is on the host.
If the detection fails, it ends with the fault and has done nothing else; else it keeps the profile
that it has detected, about whose methods nothing is known, and goes by it: it considers them all,
unless a request fails.  In any case it runs the command elevated only after a check that passed. -/
structure Anew (settings : ElevationSettings) (key : Login) (command : String)
    (timeout : Duration) (l : List Exchange) (x : Ending) : Prop where
  probes : ∃ a rest, l = ⟨.run (.probe "whoami" settings.detectTimeout), a⟩ :: rest
  detects : (∃ f, (detect key.user settings.detectTimeout).Path l (.error f) ∧
      x = .undetected f) ∨
    ∃ p probes rest, l = probes ++ ⟨.keep p, ()⟩ :: rest ∧
      (detect key.user settings.detectTimeout).Path probes (.ok p) ∧ p.Untried ∧
      (p.isRoot = false → Tolerable rest →
        Reconsiders settings key command timeout p rest x)
  checks : ChecksFirst l

/-- A detection begins with a question for the user. -/
theorem exists_of_path_detect {found : Except Fault Profile}
    (hpath : (detect key.user limit).Path l found) :
    ∃ a rest, l = ⟨.run (.probe "whoami" limit), a⟩ :: rest := by
  have hwanted : Probe.user.wanted (.ofUser "") = true := rfl
  rw [detect, Probe.order, detectWith, if_pos hwanted] at hpath
  obtain ⟨a, rest, rfl, -⟩ := Dialogue.path_ask hpath
  exact ⟨a, rest, rfl⟩

/-- A call by a profile about whose methods nothing is known. -/
theorem checksFirst_ascendFrom (hp : p.Untried)
    (hpath : (ascendFrom settings key command timeout p).Path l x) : ChecksFirst l := by
  rw [ascendFrom] at hpath
  split at hpath
  · obtain ⟨a, l, rfl, hrun⟩ := Dialogue.path_ask hpath
    have hnil : l = [] := by
      cases a <;> exact (Dialogue.path_done hrun).1
    subst hnil
    exact RunsNothing.checksFirst (RunsNothing.cons (by simp) fun _ _ _ _ _ => List.not_mem_nil)
  · refine checksFirst_tryMethods (fun m _ hm => ?_) [] hpath
    rw [hp.2.1] at hm
    cases hm

theorem reconsiders_ascendFrom (hp : p.Untried) (hroot : p.isRoot = false) (hl : Tolerable l)
    (hpath : (ascendFrom settings key command timeout p).Path l x) :
    Reconsiders settings key command timeout p l x := by
  have hagrees : Agrees p p Method.order :=
    ⟨rfl, fun _ => rfl, fun _ _ => Iff.rfl, fun _ _ => Iff.rfl, fun _ _ => rfl⟩
  rw [ascendFrom, if_neg (by simp [hroot])] at hpath
  obtain ⟨part, hparts, hcourse⟩ := exists_parts (by decide) hagrees [] hpath hl
  exact ⟨part, hparts, hcourse, fun _ _ hpassed => hpassed.of_untried hp⟩

/-- **A call on a login without a profile finds out everything anew.** -/
theorem anew_of_path (hpath : (ascend settings key command timeout none).Path l x) :
    Anew settings key command timeout l x := by
  have hblank : (Profile.ofUser "").Untried := ⟨rfl, rfl, rfl⟩
  obtain ⟨probes, rest, found, rfl, hprobes, hrest⟩ := Dialogue.path_bind hpath
  obtain ⟨hsent, hfound⟩ := path_detectWith hblank hprobes
  obtain ⟨a, more, hfirst⟩ := exists_of_path_detect hprobes
  have hquiet : RunsNothing probes := by
    intro m password command timeout a hmem
    obtain ⟨q, hq⟩ := hsent _ hmem
    cases hq
  refine ⟨⟨a, more ++ rest, by rw [hfirst]; rfl⟩, ?_, ?_⟩
  · cases found with
    | error f =>
      obtain ⟨rfl, rfl⟩ := Dialogue.path_done hrest
      exact .inl ⟨f, (List.append_nil probes).symm ▸ hprobes, rfl⟩
    | ok p =>
      obtain ⟨_, rest, rfl, hcall⟩ := Dialogue.path_ask hrest
      exact .inr ⟨p, probes, rest, rfl, hprobes, hfound p rfl, fun hroot hl =>
        reconsiders_ascendFrom (hfound p rfl) hroot hl hcall⟩
  · refine hquiet.append_checksFirst ?_
    cases found with
    | error f =>
      obtain ⟨rfl, -⟩ := Dialogue.path_done hrest
      exact RunsNothing.checksFirst fun _ _ _ _ _ => List.not_mem_nil
    | ok p =>
      obtain ⟨_, rest, rfl, hcall⟩ := Dialogue.path_ask hrest
      have hkept : RunsNothing [⟨.keep p, ()⟩] :=
        RunsNothing.cons (by simp) fun _ _ _ _ _ => List.not_mem_nil
      exact hkept.append_checksFirst (checksFirst_ascendFrom (hfound p rfl) hcall)

end RemoteShell.Elevation
