import RemoteShell.Proofs.Elevation.Marks

/-!
# How a call of elevation conducts itself

A call sends probes and checks, and the command of its caller at most once: as it is, if the user is
the superuser, or wrapped in a method.  Once the command was sent nothing more is sent, whatever the
reply says.  A call that fails with a transient fault passes on the fault of the command that it
sent last; none of its own faults is transient.

This holds whatever the profile of the login says, so that nothing has to be known about the engine
or about other calls.

## Main definitions

* `Errand.Runs`, `Prudent`: errands that run the command of a caller at most once, and last
* `Talk.Conducts`: a dialogue is prudent, and its end is candid about faults
* `Climb.Conducts`: the same for a call that waits

## Main results

* `conducts_ascend`: every call conducts itself so
* `Climb.conducts_start`, `Climb.Conducts.resume`: from wait to wait
-/

namespace RemoteShell.Elevation

variable {k : Login} {m : Method} {password : Option String} {p : Profile} {v : Option Profile}
  {h : List Note} {x : Note} {caller : CallId} {command : String} {timeout limit : Duration}
  {e : Errand} {es : List Errand}

/-! ## Errands -/

namespace Errand

/-- The errand is not to find out or to check something, but to run a command for somebody. -/
def RunsCommand : Errand → Prop
  | .plain .. | .elevated .. => True
  | .probe .. | .check .. => False

/-- The errand runs this command with this time limit, as it is or with a method. -/
def Runs (e : Errand) (command : String) (timeout : Duration) : Prop :=
  e = .plain command timeout ∨ ∃ m password, e = .elevated m password command timeout

end Errand

/-- **Errands run the command of the caller at most once**, and nothing comes after it. -/
def Prudent (command : String) (timeout : Duration) (es : List Errand) : Prop :=
  ∀ earlier e later, es = earlier ++ e :: later → e.RunsCommand →
    later = [] ∧ e.Runs command timeout

/-- The errand that a note sends. -/
def Note.errand? (x : Note) : Option Errand :=
  match x.deed with
  | .asks (.run e) => some e
  | _ => none

/-- The errands of a history, the first one first. -/
def errands (h : List Note) : List Errand := (h.filterMap Note.errand?).reverse

/-- No command was run for anybody yet. -/
def Fresh (h : List Note) : Prop := ∀ e ∈ errands h, ¬ e.RunsCommand

theorem errands_cons (x : Note) (h : List Note) :
    errands (x :: h) = errands h ++ x.errand?.toList := by
  rw [errands, List.filterMap_cons]
  cases x.errand? with
  | none => exact (List.append_nil _).symm
  | some e => exact List.reverse_cons

theorem prudent_of_forall (hes : ∀ e ∈ es, ¬ e.RunsCommand) : Prudent command timeout es := by
  rintro earlier e later rfl he
  exact absurd he (hes e (by simp))

/-- The command of the caller comes last. -/
theorem prudent_snoc (hes : ∀ e ∈ es, ¬ e.RunsCommand) (he : e.Runs command timeout) :
    Prudent command timeout (es ++ [e]) := by
  intro earlier d later hsplit hd
  rcases List.append_eq_append_iff.mp hsplit with ⟨between, rfl, hrest⟩ | ⟨between, rfl, hrest⟩
  · rcases List.cons_eq_append_iff.mp hrest with ⟨rfl, hd'⟩ | ⟨rest, -, hnil⟩
    · obtain ⟨rfl, hnil⟩ := List.cons.inj hd'
      exact ⟨hnil, he⟩
    · simp at hnil
  · cases between with
    | nil =>
      obtain ⟨rfl, hnil⟩ := List.cons.inj hrest
      exact ⟨hnil, he⟩
    | cons d' between =>
      obtain ⟨rfl, -⟩ := List.cons.inj hrest
      exact absurd hd (hes d (by simp))

/-! ## Dialogues -/

/-- A call is candid about how it ends: with a transient fault only if it was just told so. -/
def Candid (x : Ending) (h : List Note) : Prop :=
  ∀ f, x.result = .finished (.error f) → f.transient = true → Told f h

/-- A dialogue is prudent at every question, and a condition holds in the end. -/
abbrev Talk.Sends {α : Type} (command : String) (timeout : Duration) (mark : Deed → Note)
    (post : α → List Note → Prop) : Talk α → Option Profile → List Note → Prop :=
  Talk.Keeps (fun _ h => Prudent command timeout (errands h)) mark fun x _ h => post x h

/-- **A dialogue conducts itself well**: it is prudent at every question, and candid in the end. -/
def Talk.Conducts (command : String) (timeout : Duration) (mark : Deed → Note) :
    Talk Ending → Option Profile → List Note → Prop :=
  Talk.Sends command timeout mark Candid

section Questions

variable {α : Type} {post : α → List Note → Prop} {q : Query}
  {next : q.Answer → Talk α}

theorem errands_heard (q : Query) (a : q.Answer) (hq : ∀ e, q ≠ .run e) :
    errands (heard (.mk caller k command timeout) q a v h) = errands h := by
  rw [heard, errands_cons, errands_cons, errands_cons]
  cases q with
  | run e => exact absurd rfl (hq e)
  | _ => simp [Note.errand?]

theorem errands_heard_run (e : Errand) (a : Except Fault Reply) :
    errands (heard (.mk caller k command timeout) (.run e) a v h) = errands h ++ [e] := by
  rw [heard, errands_cons, errands_cons, errands_cons]
  simp [Note.errand?]

/-- A question that sends nothing. -/
theorem Fresh.ask (hf : Fresh h) (hq : q.Outward) (hrun : ∀ e, q ≠ .run e)
    (hnext : ∀ a, Fresh (heard (.mk caller k command timeout) q a v h) →
      Talk.Sends command timeout (.mk caller k command timeout) post (next a) v
        (heard (.mk caller k command timeout) q a v h)) :
    Talk.Sends command timeout (.mk caller k command timeout) post (.ask q next) v h := by
  have hsame : errands (.mk caller k command timeout (.asks q) ::
      .mk caller k command timeout (.leaves v) :: h) = errands h := by
    rw [errands_cons, errands_cons]
    cases q with
    | run e => exact absurd rfl (hrun e)
    | _ => simp [Note.errand?]
  refine (Talk.keeps_ask hq).mpr ⟨?_, fun a => hnext a ?_⟩
  · rw [hsame]
    exact prudent_of_forall hf
  · rwa [Fresh, errands_heard q a hrun]

/-- An errand that is not to run a command. -/
theorem Fresh.askErrand {next : Except Fault Reply → Talk α} (hf : Fresh h) (he : ¬ e.RunsCommand)
    (hnext : ∀ a, Fresh (heard (.mk caller k command timeout) (.run e) a v h) →
      Talk.Sends command timeout (.mk caller k command timeout) post (next a) v
        (heard (.mk caller k command timeout) (.run e) a v h)) :
    Talk.Sends command timeout (.mk caller k command timeout) post (.ask (.run e) next) v h := by
  have hmore : ∀ d ∈ errands h ++ [e], ¬ d.RunsCommand := by
    intro d hd
    rcases List.mem_append.mp hd with hd | hd
    · exact hf d hd
    · rwa [List.mem_singleton.mp hd]
  have hout : (Query.run e).Outward := trivial
  refine (Talk.keeps_ask hout).mpr ⟨?_, fun a => hnext a ?_⟩
  · rw [errands_cons, errands_cons]
    simpa [Note.errand?] using prudent_of_forall hmore
  · rwa [Fresh, errands_heard_run]

/-- The command of the caller. -/
theorem Fresh.askCommand {next : Except Fault Reply → Talk α} (hf : Fresh h)
    (he : e.Runs command timeout)
    (hnext : ∀ a, Prudent command timeout
        (errands (heard (.mk caller k command timeout) (.run e) a v h)) →
      Talk.Sends command timeout (.mk caller k command timeout) post (next a) v
        (heard (.mk caller k command timeout) (.run e) a v h)) :
    Talk.Sends command timeout (.mk caller k command timeout) post (.ask (.run e) next) v h := by
  have hout : (Query.run e).Outward := trivial
  refine (Talk.keeps_ask hout).mpr ⟨?_, fun a => hnext a ?_⟩
  · rw [errands_cons, errands_cons]
    simpa [Note.errand?] using prudent_snoc hf he
  · rw [errands_heard_run]
    exact prudent_snoc hf he

end Questions

theorem candid_of_told {f : Fault} (hf : Told f h) : Candid (.finished (.error f)) h := by
  intro g hg _
  cases hg
  exact hf

theorem candid_reply (r : Elevated) : Candid (.finished (.ok r)) h := by
  intro f hf
  cases hf

theorem candid_crashed : Candid .crashed h := by
  intro f hf
  cases hf

/-! ## The functions of a call -/

/-- A part of a call that runs no command, with the fault that it was told if it fails. -/
def Errs {α : Type} (fails : α → Option Fault) (x : α) (h : List Note) : Prop :=
  Fresh h ∧ ∀ f, fails x = some f → Told f h

/-- A part of a call that does not fail. -/
theorem Fresh.errs {α : Type} {fails : α → Option Fault} {x : α} (hf : Fresh h)
    (hx : fails x = none) : Errs fails x h := by
  refine ⟨hf, fun f hfails => ?_⟩
  rw [hx] at hfails
  cases hfails

theorem conducts_detectWith (fallback : String) (qs : List Probe) (hf : Fresh h) :
    Talk.Sends command timeout (.mk caller k command timeout)
      (Errs fun r => match r with | .ok _ => none | .error f => some f)
      (detectWith fallback limit qs p) v h := by
  induction qs generalizing p h with
  | nil => exact hf.errs rfl
  | cons q qs ih =>
    rw [detectWith]
    split
    · refine hf.askErrand id fun a hf => ?_
      split
      · next f ha =>
        refine ⟨hf, fun g hg => ?_⟩
        cases hg
        exact ⟨_, _, _, rfl, by rw [eq_error_of_probeAnswer ha]⟩
      · exact ih hf
    · exact ih hf

theorem conducts_passwordFor (key : Login) (p : Profile) (m : Method) (hf : Fresh h) :
    Talk.Sends command timeout (.mk caller k command timeout) (fun _ h => Fresh h)
      (passwordFor key p m) v h := by
  rw [passwordFor]
  split
  · split
    · exact hf
    · refine hf.ask trivial (by simp) fun a hf => ?_
      cases a with
      | some s => exact hf
      | none =>
        refine hf.ask trivial (by simp) fun a hf => ?_
        cases a with
        | some s => exact hf
        | none => exact hf
  · exact hf

theorem conducts_verify (key : Login) (p : Profile) (hf : Fresh h) :
    Talk.Sends command timeout (.mk caller k command timeout)
      (Errs fun r => match r with | .broken f => some f | _ => none)
      (verify limit key p m password) v h := by
  rw [verify]
  refine hf.askErrand id fun a hf => ?_
  rw [Dialogue.done_bind]
  cases hcheck : checkReply m a with
  | none => exact hf.errs rfl
  | some verdict =>
    cases verdict with
    | error f =>
      refine ⟨hf, fun g hg => ?_⟩
      cases hg
      exact ⟨_, _, _, rfl, by rw [eq_error_of_checkReply hcheck]⟩
    | ok outcome =>
      cases outcome with
      | some o =>
        change Talk.Sends command timeout (.mk caller k command timeout) _
          (if m.needsPassword = true then
            .ask (.erase (secretName key m p.user)) fun _ =>
              .done (Verdict.failed (p.markFailed m) o)
          else .done (Verdict.failed (p.markFailed m) o)) (some (p.markFailed m)) _
        split
        · exact hf.ask trivial (by simp) fun _ hf => hf.errs rfl
        · exact hf.errs rfl
      | none =>
        cases password with
        | none => exact hf.errs rfl
        | some s =>
          change Talk.Sends command timeout (.mk caller k command timeout) _
            (.ask (.store (secretName key m p.user) s) fun _ =>
              .done (Verdict.trusted (p.trust m (some s)))) (some (p.trust m (some s))) _
          exact hf.ask trivial (by simp) fun _ hf => hf.errs rfl

theorem conducts_runWith (key : Login) (p : Profile) (hf : Fresh h) :
    Talk.Conducts command timeout (.mk caller k command timeout)
      (runWith key p m password command timeout) v h := by
  rw [runWith]
  refine hf.askCommand (.inr ⟨m, password, rfl⟩) fun a hp => ?_
  rw [Dialogue.done_bind]
  cases a with
  | error f => exact candid_of_told ⟨_, _, _, rfl, rfl⟩
  | ok raw =>
    dsimp only
    cases cleanedReply? m raw with
    | none => exact candid_crashed
    | some r =>
      change Talk.Sends command timeout (.mk caller k command timeout) _
        (if (password.isSome && !r.success && passwordRejected m r) = true then
          .ask (.keep (p.forgetPassword m)) fun _ =>
            .ask (.erase (secretName key m p.user)) fun _ =>
              .done (Ending.finished (.ok ⟨r, some m⟩))
        else .done (Ending.finished (.ok ⟨r, some m⟩))) v _
      split
      · -- A rejected password is forgotten, which sends nothing.
        have hout : (Query.erase (secretName key m p.user)).Outward := trivial
        refine Talk.keeps_keep.mpr ((Talk.keeps_ask hout).mpr ⟨?_, fun _ => candid_reply _⟩)
        rw [errands_cons, errands_cons]
        simpa [Note.errand?] using hp
      · exact candid_reply _

theorem conducts_tryMethods (key : Login) (ms : List Method) (passed : List Attempt)
    (hf : Fresh h) :
    Talk.Conducts command timeout (.mk caller k command timeout)
      (tryMethods limit key command timeout ms p passed) v h := by
  induction ms generalizing p passed v h with
  | nil =>
    intro f hresult htransient
    cases hresult
    cases htransient
  | cons m ms ih =>
    rw [tryMethods]
    split
    · exact ih _ hf
    split
    · exact ih _ hf
    · refine (conducts_passwordFor key p m hf).bind fun r v h hf => ?_
      cases r with
      | error o => exact ih _ hf
      | ok password =>
        dsimp only
        split
        · exact conducts_runWith key p hf
        · refine (conducts_verify key p hf).bind fun r v h hr => ?_
          cases r with
          | unreadable => exact candid_crashed
          | broken f => exact candid_of_told (hr.2 f rfl)
          | failed q o => exact ih _ hr.1
          | trusted q => exact conducts_runWith key q hr.1

theorem conducts_ascendFrom (s : ElevationSettings) (key : Login) (hf : Fresh h) :
    Talk.Conducts command timeout (.mk caller k command timeout)
      (ascendFrom s key command timeout p) v h := by
  rw [ascendFrom]
  split
  · refine hf.askCommand (.inl rfl) fun a _ => ?_
    cases a with
    | error f => exact candid_of_told ⟨_, _, _, rfl, rfl⟩
    | ok r => exact candid_reply _
  · exact conducts_tryMethods key _ _ hf

/-- **Every call conducts itself well**, whatever the profile says. -/
theorem conducts_ascend (s : ElevationSettings) (key : Login) (profile : Option Profile)
    (hf : Fresh h) :
    Talk.Conducts command timeout (.mk caller k command timeout)
      (ascend s key command timeout profile) v h := by
  cases profile with
  | some p => exact conducts_ascendFrom s key hf
  | none =>
    refine (conducts_detectWith key.user Probe.order hf).bind fun r v h hr => ?_
    cases r with
    | error f =>
      intro g hg _
      cases hg
      exact hr.2 f rfl
    | ok p => exact conducts_ascendFrom s key hr.1

/-! ## Calls -/

namespace Climb

variable {c d : Climb} {engine : Engine} {a : Answer}

/-- The errand that a call waits for. -/
def errand? (c : Climb) : Option Errand :=
  match c.phase with
  | .talking (.ask (.run e) _) => some e
  | _ => none

/-- **A call that waits conducts itself well**, after these errands. -/
def Conducts (c : Climb) (es : List Errand) : Prop :=
  match c.phase with
  | .queued => es = []
  | .talking (.done _) => False
  | .talking (.ask q next) =>
    Prudent c.command c.timeout es ∧ ∃ v h, ∀ a,
      Talk.Conducts c.command c.timeout c.note (next a) v (heard c.note q a v h) ∧
        errands (heard c.note q a v h) = es

/-- What a call has come to conducts itself well: it has sent what it waits for now, and it is
candid if it ended. -/
structure Behaves (c : Climb) (es : List Errand) (told : Fault → Prop)
    (x : Engine × Progress Climb Result) : Prop where
  waits : ∀ d, x.2 = .waits d → d.command = c.command ∧ d.timeout = c.timeout ∧
    d.Conducts (es ++ d.errand?.toList)
  prudent : Prudent c.command c.timeout es
  candid : ∀ f, x.2 = .ends (.finished (.error f)) → f.transient = true → told f

theorem Conducts.prudent (hc : c.Conducts es) : Prudent c.command c.timeout es := by
  unfold Conducts at hc
  split at hc
  · rw [hc]
    exact prudent_of_forall (List.forall_mem_nil _)
  · exact hc.elim
  · exact hc.1

/-- A call that follows its dialogue. -/
theorem behaves_follow (engine : Engine) {t : Talk Ending}
    (ht : Talk.Conducts c.command c.timeout c.note t v h)
    (hp : Prudent c.command c.timeout (errands h)) :
    c.Behaves (errands h) (Told · h) (c.follow t engine) := by
  induction t generalizing engine v with
  | done y =>
    obtain ⟨table, -, hfinish⟩ := c.finish_eq y engine
    rw [follow, hfinish]
    exact ⟨by simp, hp, fun f hf => ht f (Progress.ends.inj hf)⟩
  | ask q next ih =>
    rcases q.outward_or_keep with hq | ⟨p, rfl⟩
    · obtain ⟨hasked, hnext⟩ := (Talk.keeps_ask hq).mp ht
      rw [c.follow_ask hq]
      refine ⟨fun d hd => ?_, hp, by simp⟩
      obtain rfl := Progress.waits.inj hd
      have hsent : errands (c.note (.asks q) :: c.note (.leaves v) :: h) =
          errands h ++ (errand? { c with phase := .talking (.ask q next) }).toList := by
        rw [errands_cons, errands_cons]
        cases q <;> simp [note, Note.errand?, errand?]
      refine ⟨rfl, rfl, ?_, v, h, fun a => ⟨hnext a, ?_⟩⟩
      · rw [← hsent]
        exact hasked
      · rw [heard, errands_cons]
        exact (List.append_nil _).trans hsent
    · exact ih () _ ht

theorem behaves_begin (c : Climb) (engine : Engine) :
    c.Behaves [] (fun _ => False) (c.begin engine) := by
  have hconducts : Talk.Conducts c.command c.timeout c.note (ascend engine.settings c.key c.command
      c.timeout (engine.profiles.value? c.cell).join) none [] :=
    conducts_ascend engine.settings c.key _ (List.forall_mem_nil _)
  have hbehaves : c.Behaves [] (Told · []) (c.begin engine) :=
    behaves_follow engine hconducts (prudent_of_forall (List.forall_mem_nil _))
  refine ⟨hbehaves.waits, hbehaves.prudent, fun f hf htransient => ?_⟩
  obtain ⟨x, e, earlier, hnil, -⟩ := hbehaves.candid f hf htransient
  cases hnil

/-- A call that begins. -/
theorem conducts_start (caller : CallId) (key : Login) (command : String) (timeout : Duration)
    (on : Option ConnId) (engine : Engine) :
    (arrive caller key command timeout on engine).Behaves [] (fun _ => False)
      (start caller key command timeout on engine) := by
  rw [start_eq]
  split
  · exact behaves_begin _ _
  · refine ⟨fun d hd => ?_, prudent_of_forall (List.forall_mem_nil _), by simp⟩
    obtain rfl := Progress.waits.inj hd
    exact ⟨rfl, rfl, rfl⟩

/-- A call that goes on with an answer that it may hear. -/
theorem Conducts.resume (hc : c.Conducts es) (ha : c.mayHear engine a = true) :
    c.Behaves es (fun f => a = .replied (.error f)) (c.resume a engine) := by
  have hp := hc.prudent
  obtain ⟨caller, key, command, timeout, on, cell, phase⟩ := c
  cases phase with
  | queued =>
    obtain rfl : es = [] := hc
    cases a with
    | admitted =>
      have hbehaves := behaves_begin ⟨caller, key, command, timeout, on, cell, .queued⟩ engine
      exact ⟨hbehaves.waits, hp, fun f hf ht => (hbehaves.candid f hf ht).elim⟩
    | _ => exact absurd ha Bool.false_ne_true
  | talking t =>
    cases t with
    | done y => exact hc.elim
    | ask q next =>
      obtain ⟨x, hx⟩ := Option.isSome_iff_exists.mp ha
      obtain ⟨-, v, h, hnext⟩ := hc
      obtain ⟨hconducts, rfl⟩ := hnext x
      have hresume : Climb.resume ⟨caller, key, command, timeout, on, cell,
            .talking (.ask q next)⟩ a engine =
          Climb.follow ⟨caller, key, command, timeout, on, cell, .talking (.ask q next)⟩
            (next x) engine := by
        simp only [Climb.resume, hx]
      rw [hresume]
      have hbehaves := behaves_follow engine hconducts hp
      refine ⟨hbehaves.waits, hp, fun f hf htransient => ?_⟩
      -- What was heard last is the answer.
      obtain ⟨y, e, earlier, hy, hdeed⟩ := hbehaves.candid f hf htransient
      obtain ⟨rfl, -⟩ := List.cons.inj hy
      obtain ⟨rfl, hxf⟩ := Deed.hears.inj hdeed
      obtain rfl := eq_of_heq hxf
      cases a with
      | replied r =>
        obtain rfl := Option.some.inj hx
        rfl
      | _ => cases hx

end Climb

end RemoteShell.Elevation
