import RemoteShell.Proofs.Dialogue.Paths
import RemoteShell.Proofs.Elevation.Faults
import RemoteShell.Proofs.Elevation.Moves
import RemoteShell.Proofs.Elevation.Parts

/-!
# Which method runs the command

A call takes the methods one by one, in their order, until one of them runs the command.  This is
read off the ways through a call: each of them is cut into one part for each method.  Since a call
is asked about with all the answers there may be, and not only those it would get, nothing is said
about the host but that no request fails.

All of this is said with the profile that the call finds: what a call learns about a method has no
bearing on the others.

## Main definitions

* `Tolerable`: nothing fails but checks that take too long
* `Agrees`: profiles that differ only in what does not matter for some methods
* `Round`: what the loop does with one method
* `Finds`: the profile that a call goes by

## Main results

* `path_passwordFor`, `path_verify`, `exists_of_path_runWith`: the ways through the functions of a
  call
* `round_tryMethods`, `exists_parts`: one round of the loop, and all of it part by part
* `first_qualified_runs`: what a call does, and what it returns
-/

namespace RemoteShell.Elevation

variable {key : Login} {p q : Profile} {m : Method} {o : Outcome} {password : Option String}
  {command : String} {timeout limit : Duration} {l : List Exchange} {x : Ending} {r : Reply}
  {a : Except Fault Reply}

/-! ## The functions of a call -/

/-- No request ends in an error, but for checks that do not come back in time. -/
def Tolerable (l : List Exchange) : Prop :=
  ∀ e f, ⟨.run e, .error f⟩ ∈ l →
    (∃ m password limit, e = .check m password limit) ∧ f.kind = .commandTimeout

/-- What a check says about a method that does not pass it. -/
theorem checkReply_eq_refusal_iff :
    checkReply m a = some (.ok (some o)) ↔ Refuses m a o := by
  cases a with
  | error f => cases f <;> simp [checkReply, Refuses, Fault.kind, eq_comm]
  | ok r =>
    have hsuccess : r.success = true ↔ r.exitCode = 0 := beq_iff_eq
    rw [checkReply, Refuses, FailsCheck]
    by_cases hr : r.success = true
    · rw [if_pos hr]
      cases hclean : cleanedReply? m r with
      | none => simp [hsuccess.mp hr]
      | some out =>
        by_cases ht : Text.trim out.stdout = "root"
        · simp [hsuccess.mp hr, ht]
        · simpa [hsuccess.mp hr, ht] using eq_comm
    · rw [if_neg hr]
      simpa [mt hsuccess.mpr hr] using eq_comm

/-- **A way to a password**: it is got, or the operator declines. -/
theorem path_passwordFor {r : Except Outcome (Option String)}
    (h : (passwordFor key p m).Path l r) :
    (∃ password, r = .ok password ∧ Source key p m password l) ∨
      r = .error .declined ∧ m.needsPassword = true ∧ p.passwords.get? m = none ∧
        ∃ said, (said = none ∨ said = some "") ∧
          l = [⟨.fetch (secretName key m p.user), none⟩,
            ⟨.prompt (promptText key m p.user), said⟩] := by
  rw [passwordFor] at h
  split at h
  · next asks =>
    split at h
    · next s hs =>
      obtain ⟨rfl, rfl⟩ := Dialogue.path_done h
      exact .inl ⟨_, rfl, .known asks hs⟩
    · next unknown =>
      obtain ⟨stored, l, rfl, hfetched⟩ := Dialogue.path_ask h
      rw [Dialogue.done_bind] at hfetched
      cases stored with
      | some s =>
        obtain ⟨rfl, rfl⟩ := Dialogue.path_done hfetched
        exact .inl ⟨_, rfl, .stored asks unknown⟩
      | none =>
        obtain ⟨said, l, rfl, hprompted⟩ := Dialogue.path_ask hfetched
        rw [Dialogue.done_bind] at hprompted
        cases said with
        | none =>
          obtain ⟨rfl, rfl⟩ := Dialogue.path_done hprompted
          exact .inr ⟨rfl, asks, unknown, _, .inl rfl, rfl⟩
        | some s =>
          obtain ⟨rfl, rfl⟩ := Dialogue.path_done hprompted
          by_cases hs : s = ""
          · subst hs
            exact .inr ⟨rfl, asks, unknown, _, .inr rfl, rfl⟩
          · rw [if_neg (mt String.isEmpty_iff.mp hs)]
            exact .inl ⟨_, rfl, .given asks unknown hs⟩
  · next free =>
    obtain ⟨rfl, rfl⟩ := Dialogue.path_done h
    exact .inl ⟨_, rfl, .unneeded (Bool.eq_false_iff.mpr free)⟩

/-- What a check says when it is over, by the answer to its command. -/
def Judges (p : Profile) (m : Method) (password : Option String) (limit : Duration)
    (a : Except Fault Reply) (notes : List Exchange) : Verdict → Prop
  | .trusted q => q = p.trust m password ∧ ∃ r, a = .ok r ∧ NamesRoot m r
  | .failed q o => q = p.markFailed m ∧ Refuses m a o
  | .broken f => a = .error f ∧ f.kind ≠ .commandTimeout
  | .unreadable => notes = [] ∧ (Errand.check m password limit).Garbles a

/-- **A way through a check**: it is answered, and nothing more is seen of it. -/
theorem path_verify {v : Verdict} (h : (verify limit key p m password).Path l v) :
    ∃ a notes, l = ⟨.run (.check m password limit), a⟩ :: notes ∧ Quiet notes ∧
      Judges p m password limit a notes v := by
  rw [verify] at h
  obtain ⟨a, l, rfl, hreplied⟩ := Dialogue.path_ask h
  rw [Dialogue.done_bind] at hreplied
  refine ⟨a, l, rfl, ?_⟩
  cases hcheck : checkReply m a with
  | none =>
    rw [hcheck] at hreplied
    obtain ⟨rfl, rfl⟩ := Dialogue.path_done hreplied
    exact ⟨List.forall_mem_nil _, rfl, checkReply_eq_none_iff.mp hcheck⟩
  | some verdict =>
    rw [hcheck] at hreplied
    cases verdict with
    | error f =>
      obtain ⟨rfl, rfl⟩ := Dialogue.path_done hreplied
      obtain rfl := eq_error_of_checkReply hcheck
      exact ⟨List.forall_mem_nil _, rfl, breaksOff_of_checkReply (.inr ⟨f, hcheck⟩)⟩
    | ok outcome =>
      cases outcome with
      | some o =>
        have hrefuses := checkReply_eq_refusal_iff.mp hcheck
        obtain ⟨_, l, rfl, hkept⟩ := Dialogue.path_ask hreplied
        rw [Dialogue.done_bind] at hkept
        split at hkept
        · obtain ⟨_, l, rfl, herased⟩ := Dialogue.path_ask hkept
          obtain ⟨rfl, rfl⟩ := Dialogue.path_done herased
          exact ⟨by simp [Quiet, Query.seen], rfl, hrefuses⟩
        · obtain ⟨rfl, rfl⟩ := Dialogue.path_done hkept
          exact ⟨by simp [Quiet, Query.seen], rfl, hrefuses⟩
      | none =>
        have hpasses := checkReply_eq_passed_iff.mp hcheck
        obtain ⟨_, l, rfl, hkept⟩ := Dialogue.path_ask hreplied
        rw [Dialogue.done_bind] at hkept
        cases password with
        | none =>
          obtain ⟨rfl, rfl⟩ := Dialogue.path_done hkept
          exact ⟨by simp [Quiet, Query.seen], rfl, hpasses⟩
        | some s =>
          obtain ⟨_, l, rfl, hstored⟩ := Dialogue.path_ask hkept
          obtain ⟨rfl, rfl⟩ := Dialogue.path_done hstored
          exact ⟨by simp [Quiet, Query.seen], rfl, hpasses⟩

/-- **A way through the run of the command**: it is answered, and nothing more is seen of it. -/
theorem exists_of_path_runWith (h : (runWith key p m password command timeout).Path l x) :
    ∃ a after, l = ⟨.run (.elevated m password command timeout), a⟩ :: after ∧ Quiet after ∧
      match a with
      | .error f => x = .finished (.error f)
      | .ok raw => (∃ r, cleanedReply? m raw = some r ∧ x = .finished (.ok ⟨r, some m⟩)) ∨
          after = [] ∧ x = .crashed ∧ cleanedReply? m raw = none := by
  rw [runWith] at h
  obtain ⟨a, l, rfl, hreplied⟩ := Dialogue.path_ask h
  rw [Dialogue.done_bind] at hreplied
  refine ⟨a, l, rfl, ?_⟩
  cases a with
  | error f =>
    obtain ⟨rfl, rfl⟩ := Dialogue.path_done hreplied
    exact ⟨List.forall_mem_nil _, rfl⟩
  | ok raw =>
    dsimp only at hreplied ⊢
    cases hclean : cleanedReply? m raw with
    | none =>
      rw [hclean] at hreplied
      obtain ⟨rfl, rfl⟩ := Dialogue.path_done hreplied
      exact ⟨List.forall_mem_nil _, .inr ⟨rfl, rfl, rfl⟩⟩
    | some r =>
      rw [hclean] at hreplied
      dsimp only at hreplied
      split at hreplied
      · obtain ⟨_, l, rfl, hkept⟩ := Dialogue.path_ask hreplied
        obtain ⟨_, l, rfl, herased⟩ := Dialogue.path_ask hkept
        obtain ⟨rfl, rfl⟩ := Dialogue.path_done herased
        exact ⟨by simp [Quiet, Query.seen], .inl ⟨r, rfl, rfl⟩⟩
      · obtain ⟨rfl, rfl⟩ := Dialogue.path_done hreplied
        exact ⟨List.forall_mem_nil _, .inl ⟨r, rfl, rfl⟩⟩

/-! ## The loop -/

/-- **Two profiles agree** about some methods, in all that decides whether they are used. -/
structure Agrees (p q : Profile) (ms : List Method) : Prop where
  user : q.user = p.user
  offers : ∀ m, q.offers m = p.offers m
  failed : ∀ m ∈ ms, m ∈ q.failed ↔ m ∈ p.failed
  verified : ∀ m ∈ ms, m ∈ q.verified ↔ m ∈ p.verified
  passwords : ∀ m ∈ ms, q.passwords.get? m = p.passwords.get? m

/-- What is learned about a method has no bearing on the others. -/
theorem Agrees.markFailed {ms : List Method} (h : Agrees p q (m :: ms)) (hm : m ∉ ms) :
    Agrees p (q.markFailed m) ms where
  user := h.user
  offers l := (h.offers l).symm ▸ by cases l <;> rfl
  failed l hl := by
    have hne : l ≠ m := ne_of_mem_of_not_mem hl hm
    rw [← h.failed l (List.mem_cons_of_mem m hl)]
    exact List.mem_insert_iff.trans (or_iff_right hne)
  verified l hl := by
    have hne : l ≠ m := ne_of_mem_of_not_mem hl hm
    rw [← h.verified l (List.mem_cons_of_mem m hl)]
    exact List.mem_filter.trans (and_iff_left (decide_eq_true hne))
  passwords l hl := by
    rw [← h.passwords l (List.mem_cons_of_mem m hl)]
    exact Assoc.get?_erase_of_ne _ (ne_of_mem_of_not_mem hl hm)

theorem Agrees.tail {ms : List Method} (h : Agrees p q (m :: ms)) : Agrees p q ms where
  user := h.user
  offers := h.offers
  failed l hl := h.failed l (List.mem_cons_of_mem m hl)
  verified l hl := h.verified l (List.mem_cons_of_mem m hl)
  passwords l hl := h.passwords l (List.mem_cons_of_mem m hl)

theorem Agrees.source {ms : List Method} (h : Agrees p q (m :: ms)) {source : List Exchange}
    (hs : Source key q m password source) : Source key p m password source := by
  have hpassword := h.passwords m List.mem_cons_self
  cases hs with
  | unneeded free => exact .unneeded free
  | known asks known => exact .known asks (hpassword ▸ known)
  | stored asks unknown => exact h.user ▸ .stored asks (hpassword ▸ unknown)
  | given asks unknown nonempty => exact h.user ▸ .given asks (hpassword ▸ unknown) nonempty

/-- **One round of the loop**: a method is passed over, and the loop goes on with what it has
learned about it, or the method ends the call. -/
inductive Round (limit : Duration) (key : Login) (command : String) (timeout : Duration)
    (p : Profile) (m : Method) (ms : List Method) (passed : List Attempt) :
    List Exchange → Ending → Prop
  | passes {first second : List Exchange} {q : Profile} {o : Outcome} {x : Ending}
      (passes : PassedOver limit key p m o first) (agrees : Agrees p q ms)
      (rest : (tryMethods limit key command timeout ms q (passed ++ [⟨m, o⟩])).Path second x) :
      Round limit key command timeout p m ms passed (first ++ second) x
  | runs {part : List Exchange} {r : Reply}
      (runs : RunsCommand limit key command timeout p m r part) :
      Round limit key command timeout p m ms passed part (.finished (.ok ⟨r, some m⟩))
  | breaks {part : List Exchange} (breaks : Breaks limit key command timeout p m part) :
      Round limit key command timeout p m ms passed part .crashed

/-- A method that qualifies runs the command or breaks the call. -/
theorem round_runWith {before : List Exchange} {ms : List Method} {passed : List Attempt}
    (hqualified : Qualified limit key p m password before)
    (hpath : (runWith key q m password command timeout).Path l x) (hl : Tolerable l) :
    Round limit key command timeout p m ms passed (before ++ l) x := by
  obtain ⟨a, after, rfl, quiet, ha⟩ := exists_of_path_runWith hpath
  cases a with
  | error f => obtain ⟨⟨_, _, _, ⟨⟩⟩, -⟩ := hl _ f List.mem_cons_self
  | ok raw =>
    rcases ha with ⟨r, hclean, rfl⟩ | ⟨rfl, rfl, hclean⟩
    · exact .runs ⟨password, before, raw, after, rfl, hqualified, hclean, quiet⟩
    · exact .breaks (.running hqualified (cleanedReply?_eq_none_iff.mp hclean))

/-- A method that has a password and has not passed its check is checked first. -/
theorem round_verify {source : List Exchange} {ms : List Method} {passed : List Attempt}
    (hm : m ∉ ms) (hq : Agrees p q (m :: ms)) (heligible : Eligible p m)
    (hsource : Source key p m password source) (hunverified : m ∉ p.verified)
    (hpath : ((verify limit key q m password).bind fun
      | .unreadable => .done .crashed
      | .broken f => .done (.finished (.error f))
      | .failed q o => tryMethods limit key command timeout ms q (passed ++ [⟨m, o⟩])
      | .trusted q => runWith key q m password command timeout).Path l x)
    (hl : Tolerable l) :
    Round limit key command timeout p m ms passed (source ++ l) x := by
  obtain ⟨check, rest, v, rfl, hcheck, hrest⟩ := Dialogue.path_bind hpath
  obtain ⟨a, notes, rfl, quiet, hjudges⟩ := path_verify hcheck
  rw [← List.append_assoc]
  cases v with
  | trusted r =>
    obtain ⟨rfl, reply, rfl, hroot⟩ := hjudges
    exact round_runWith (.checked heligible hsource hunverified hroot quiet) hrest
      fun e f hmem => hl e f (List.mem_append_right _ hmem)
  | failed r o =>
    obtain ⟨rfl, hrefuses⟩ := hjudges
    exact .passes (.refused heligible hsource hunverified hrefuses quiet) (hq.markFailed hm) hrest
  | broken f =>
    obtain ⟨rfl, hkind⟩ := hjudges
    exact absurd (hl _ f (List.mem_append_left _ List.mem_cons_self)).2 hkind
  | unreadable =>
    obtain ⟨rfl, hgarbles⟩ := hjudges
    obtain ⟨rfl, rfl⟩ := Dialogue.path_done hrest
    rw [List.append_nil]
    exact .breaks (.checking heligible hsource hunverified hgarbles)

/-- **Every way through the loop begins with a round.** -/
theorem round_tryMethods {ms : List Method} (hm : m ∉ ms) (hq : Agrees p q (m :: ms))
    (passed : List Attempt)
    (hpath : (tryMethods limit key command timeout (m :: ms) q passed).Path l x)
    (hl : Tolerable l) : Round limit key command timeout p m ms passed l x := by
  have hoffers : q.offers m = p.offers m := hq.offers m
  have hfailed : q.failed.contains m = true ↔ m ∈ p.failed :=
    List.contains_iff_mem.trans (hq.failed m List.mem_cons_self)
  have hverified : q.verified.contains m = true ↔ m ∈ p.verified :=
    List.contains_iff_mem.trans (hq.verified m List.mem_cons_self)
  rw [tryMethods, hoffers] at hpath
  split at hpath
  · next hmissing =>
    change Round limit key command timeout p m ms passed ([] ++ l) x
    exact .passes (.unavailable (by simpa using hmissing)) hq.tail hpath
  split at hpath
  · next hoffered hfails =>
    change Round limit key command timeout p m ms passed ([] ++ l) x
    exact .passes (.previouslyFailed (by simpa using hoffered) (hfailed.mp hfails)) hq.tail hpath
  · next hoffered hfails =>
    have heligible : Eligible p m := ⟨by simpa using hoffered, mt hfailed.mpr hfails⟩
    obtain ⟨source, rest, got, rfl, hgot, hrest⟩ := Dialogue.path_bind hpath
    have htolerable : Tolerable rest := fun e f hmem => hl e f (List.mem_append_right _ hmem)
    rcases path_passwordFor hgot with ⟨password, rfl, hsource⟩ |
      ⟨rfl, asks, unknown, said, declines, rfl⟩
    · replace hsource : Source key p m password source := hq.source hsource
      dsimp only at hrest
      split at hrest
      · next hpassed =>
        exact round_runWith (.verified heligible hsource (hverified.mp hpassed)) hrest htolerable
      · next hpassed =>
        exact round_verify hm hq heligible hsource (mt hverified.mpr hpassed) hrest htolerable
    · rw [hq.user]
      rw [hq.passwords m List.mem_cons_self] at unknown
      exact .passes (.declined heligible asks unknown declines) hq.tail hrest

/-- The parts of a call, of which the first one is this. -/
theorem flatMap_update {part : Method → List Exchange} {ms : List Method} (hm : m ∉ ms)
    (first : List Exchange) :
    (m :: ms).flatMap (Function.update part m first) = first ++ ms.flatMap part := by
  rw [List.flatMap_cons, Function.update_self]
  refine congrArg (first ++ ·) (List.flatMap_congr fun l hl => ?_)
  exact Function.update_of_ne (ne_of_mem_of_not_mem hl hm) ..

/-- A call that ends with a method has no part for those after it. -/
theorem exists_parts_of_last {ms : List Method} {passed : List Attempt} (hm : m ∉ ms)
    {last : List Exchange}
    (hcourse : ∀ part : Method → List Exchange, part m = last → (∀ l ∈ ms, part l = []) →
      Course limit key command timeout p part ([] ++ m :: ms) passed x) :
    ∃ part : Method → List Exchange, last = (m :: ms).flatMap part ∧
      Course limit key command timeout p part (m :: ms) passed x := by
  have hflat : (m :: ms).flatMap (Function.update (fun _ => []) m last) = last := by
    rw [flatMap_update hm, flatMap_eq_nil fun _ _ => rfl, List.append_nil]
  exact ⟨_, hflat.symm, hcourse _ (Function.update_self ..) fun l hl =>
    Function.update_of_ne (ne_of_mem_of_not_mem hl hm) ..⟩

/-- **The loop over the methods, part by part**, as it appears with a profile that agrees about
them. -/
theorem exists_parts {ms : List Method} (hms : ms.Nodup) (hq : Agrees p q ms)
    (passed : List Attempt)
    (hpath : (tryMethods limit key command timeout ms q passed).Path l x) (hl : Tolerable l) :
    ∃ part : Method → List Exchange, l = ms.flatMap part ∧
      Course limit key command timeout p part ms passed x := by
  induction ms generalizing q passed l with
  | nil =>
    obtain ⟨rfl, rfl⟩ := Dialogue.path_done hpath
    refine ⟨fun _ => [], rfl, ?_⟩
    have hcourse : Course limit key command timeout p (fun _ => []) [] passed
        (.finished (.error (.elevationUnavailable key.host
          (passed ++ [].map fun m => ⟨m, .unavailable⟩)))) :=
      .unavailable _ (List.forall_mem_nil _)
    rwa [List.map_nil, List.append_nil] at hcourse
  | cons m ms ih =>
    obtain ⟨hm, hms⟩ := List.nodup_cons.mp hms
    cases round_tryMethods hm hq passed hpath hl with
    | passes passes agrees rest =>
      obtain ⟨part, rfl, hcourse⟩ := ih hms agrees _ rest fun e f hmem =>
        hl e f (List.mem_append_right _ hmem)
      exact ⟨_, (flatMap_update hm _).symm, hcourse.cons passes hm⟩
    | runs runs =>
      exact exists_parts_of_last hm fun part hpart hrest =>
        .runs (List.forall_mem_nil _) (hpart.symm ▸ runs) hrest
    | breaks breaks =>
      exact exists_parts_of_last hm fun part hpart hrest =>
        .breaks (List.forall_mem_nil _) (hpart.symm ▸ breaks) hrest

/-! ## Calls -/

/-- **The profile that a call finds**: the one that is known, or else the one that it detects and
keeps. -/
inductive Finds (settings : ElevationSettings) (key : Login) (p : Profile) :
    Option Profile → List Exchange → Prop
  | known : Finds settings key p (some p) []
  | detected {probes : List Exchange}
      (detects : (detect key.user settings.detectTimeout).Path probes (.ok p)) :
      Finds settings key p none (probes ++ [⟨.keep p, ()⟩])

/-- A call finds a profile, and goes on with it. -/
theorem exists_finds {settings : ElevationSettings} {known : Option Profile}
    (hpath : (ascend settings key command timeout known).Path l x) (hl : Tolerable l) :
    ∃ p found rest, l = found ++ rest ∧ Finds settings key p known found ∧
      (ascendFrom settings key command timeout p).Path rest x := by
  cases known with
  | some p => exact ⟨p, [], l, rfl, .known, hpath⟩
  | none =>
    obtain ⟨probes, l, r, rfl, hprobes, hkept⟩ := Dialogue.path_bind hpath
    rcases (frank_detectWith key.user Probe.order _).of_path hprobes with
      ⟨p, rfl⟩ | ⟨d, f, hmem, hends, -⟩
    · obtain ⟨_, rest, rfl, hrest⟩ := Dialogue.path_ask hkept
      exact ⟨p, _, rest, (List.append_assoc probes [_] rest).symm, .detected hprobes, hrest⟩
    · -- The fault of a check is none of a detection.
      obtain ⟨⟨m, password, limit, rfl⟩, hkind⟩ := hl d f (List.mem_append_left _ hmem)
      exact absurd hkind hends.1

/-- **What a call does** if no request ends in an error but for checks that do not come back in
time.  Whatever it is answered, it comes to an end.  It crashes exactly if it is told a garbled
output.

Let the user of the login not be the superuser.  What others see of the call, once it has found a
profile, are acts in their order, each of them at most once, and all it asks is cut into one part
for each method.  The command is run once, by the first method that qualifies, and nothing is asked
about the methods after it; if none qualifies the command is not run, and the call says of every
method in its order why. -/
theorem first_qualified_runs (settings : ElevationSettings) (key : Login) (command : String)
    (timeout : Duration) (known : Option Profile) :
    (∀ answer, ∃ l x, (ascend settings key command timeout known).Path l x ∧
      Dialogue.AnsweredBy answer [] l) ∧
    ∀ l x, (ascend settings key command timeout known).Path l x → Tolerable l →
      (x = .crashed ↔ ∃ y ∈ l, y.1.Garbles y.2) ∧
      ∃ p found rest, l = found ++ rest ∧ Finds settings key p known found ∧
        (p.isRoot = false → ∃ (as : List Act) (part : Method → List Exchange),
          Shows key p.user rest as ∧ as.Sublist (agenda Method.order) ∧
          rest = Method.order.flatMap part ∧
          Course settings.verifyTimeout key command timeout p part Method.order [] x ∧
          (∀ r m, x = .finished (.ok ⟨r, some m⟩) →
            as.filter (·.stage = .running) = [⟨m, .running⟩] ∧
              Qualifies settings.verifyTimeout key p m (part m) ∧
              ∃ before after, Method.order = before ++ m :: after ∧
                ∀ l ∈ before, ¬ Qualifies settings.verifyTimeout key p l (part l)) ∧
          ∀ f, x = .finished (.error f) → as.filter (·.stage = .running) = [] ∧
            ∀ m, ¬ Qualifies settings.verifyTimeout key p m (part m)) := by
  refine ⟨fun answer => Dialogue.exists_path _ answer [], fun l x hpath hl => ?_⟩
  refine ⟨(brittle_ascend settings key known).broken_iff hpath, ?_⟩
  obtain ⟨p, found, rest, rfl, hfound, hrest⟩ := exists_finds hpath hl
  refine ⟨p, found, rest, rfl, hfound, fun hroot => ?_⟩
  have hagrees : Agrees p p Method.order :=
    ⟨rfl, fun _ => rfl, fun _ _ => Iff.rfl, fun _ _ => Iff.rfl, fun _ _ => rfl⟩
  rw [ascendFrom, if_neg (by simp [hroot])] at hrest
  obtain ⟨part, rfl, hcourse⟩ := exists_parts (by decide) hagrees [] hrest fun e f hmem =>
    hl e f (List.mem_append_right _ hmem)
  obtain ⟨as, hshows, has, hruns, hnever⟩ := hcourse.shows
  obtain ⟨hfirst, hnone⟩ := hcourse.first
  refine ⟨as, part, hshows, has, rfl, hcourse, fun r m hx => ⟨hruns r m hx, hfirst r m hx⟩, ?_⟩
  exact fun f hf => ⟨hnever f hf, fun m => hnone f hf m (by cases m <;> decide)⟩

/-- What a host offers to a user who may use `doas` without a password and `sudo` with one. -/
def twoTools : Profile :=
  { Profile.ofUser "ann" with isRoot := false, hasSudo := true, hasDoas := true, doasFree := true }

/-- `doas` does not give the rights of the superuser, `sudo` does. -/
def secondTool : List Exchange :=
  [⟨.run (.check .doas none (.ofSecs 15)), .ok ⟨"ann\n", "", 0⟩⟩,
    ⟨.keep (twoTools.markFailed .doas), ()⟩,
    ⟨.fetch "ssh-elevation:user:ann@a:22", none⟩,
    ⟨.prompt "Enter password for ann@a (sudo_with_password):", some "pw"⟩,
    ⟨.run (.check .sudoPassword (some "pw") (.ofSecs 15)), .ok ⟨"root\n", "", 0⟩⟩,
    ⟨.keep ((twoTools.markFailed .doas).trust .sudoPassword (some "pw")), ()⟩,
    ⟨.store "ssh-elevation:user:ann@a:22" "pw", ()⟩,
    ⟨.run (.elevated .sudoPassword (some "pw") "id" (.ofSecs 60)), .ok ⟨"uid=0\n", "", 0⟩⟩]

theorem path_secondTool :
    (ascend ⟨.ofSecs 15, .ofSecs 15⟩ ⟨"ann", "a", 22⟩ "id" (.ofSecs 60) (some twoTools)).Path
        secondTool (.finished (.ok ⟨⟨"uid=0\n", "", 0⟩, some .sudoPassword⟩)) :=
  .ask (.ask (.ask (.ask (.ask (.ask (.ask (.ask (.done _))))))))

/-- `sudo` is the first method that qualifies, and it alone runs the command. -/
theorem first_qualified_runs_of_twoTools :
    Tolerable secondTool ∧
      ∃ (as : List Act) (part : Method → List Exchange),
        Shows ⟨"ann", "a", 22⟩ "ann" secondTool as ∧ secondTool = Method.order.flatMap part ∧
        as.filter (·.stage = .running) = [⟨.sudoPassword, .running⟩] ∧
        Qualifies (.ofSecs 15) ⟨"ann", "a", 22⟩ twoTools .sudoPassword (part .sudoPassword) ∧
        ¬ Qualifies (.ofSecs 15) ⟨"ann", "a", 22⟩ twoTools .doas (part .doas) := by
  have htolerable : Tolerable secondTool := by simp [Tolerable, secondTool]
  obtain ⟨-, p, found, rest, hl, hfinds, hcalls⟩ :=
    (first_qualified_runs _ _ _ _ _).2 _ _ path_secondTool htolerable
  cases hfinds
  obtain rfl : secondTool = rest := hl
  obtain ⟨as, part, hshows, -, hpart, -, hfirst, -⟩ := hcalls rfl
  obtain ⟨hruns, hqualifies, before, after, horder, hbefore⟩ := hfirst _ _ rfl
  have hdoas : .doas ∈ before := by
    rcases before with _ | ⟨l, _ | ⟨n, before⟩⟩ <;> simp_all [Method.order]
  exact ⟨htolerable, as, part, hshows, hpart, hruns, hqualifies, hbefore _ hdoas⟩

/-! ### Garbled output -/

/-- A call on a host that offers `su` alone. -/
def suCall : Talk Ending :=
  ascend ⟨.ofSecs 10, .ofSecs 10⟩ ⟨"deploy", "db-01", 22⟩ "id" (.ofSecs 30)
    (some { Profile.ofUser "deploy" with isRoot := false, hasSu := true })

/-- The check of `su` succeeds, and prints a dotted capital I. -/
def garbledCheck : List Exchange :=
  [⟨.fetch "ssh-elevation:root:deploy@db-01:22", none⟩,
    ⟨.prompt "Enter root password for su on db-01:", some "s3cret"⟩,
    ⟨.run (.check .su (some "s3cret") (.ofSecs 10)), .ok ⟨"\u0130:x\r\n", "", 0⟩⟩]

/-- The output does not name the superuser, yet the call crashes: it does not say that the password
of `su` is wrong, nor anything else. -/
theorem crashed_at_garbledCheck :
    Tolerable garbledCheck ∧ suCall.Path garbledCheck .crashed ∧
      ∀ r, ¬ suCall.Path garbledCheck (.finished r) := by
  have hbrittle : Talk.Brittle (· = .crashed) suCall := brittle_ascend ..
  have hgarbles : (Query.run (.check .su (some "s3cret") (.ofSecs 10))).Garbles
      (.ok ⟨"\u0130:x\r\n", "", 0⟩) :=
    ⟨rfl, rfl, Terminal.cleaned?_eq_none_iff.mp (by decide +kernel)⟩
  obtain ⟨x, rfl, hpath⟩ := Talk.Brittle.exists_path
    (((hbrittle none).2 id (some "s3cret")).2 id) hgarbles
  refine ⟨by simp [Tolerable, garbledCheck], .ask (.ask hpath), fun r hfinished => ?_⟩
  cases (hbrittle.broken_iff hfinished).mpr ⟨_, .tail _ (.tail _ (.head _)), hgarbles⟩

end RemoteShell.Elevation
