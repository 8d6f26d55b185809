import Mathlib.Data.List.Basic
import RemoteShell.Proofs.Elevation.Evidence
import RemoteShell.Proofs.Elevation.Soundness

/-!
# Failed methods

A method whose check failed is marked in the profile of the login.  The marks are what the history
of the profile says and nothing else: a method is marked exactly if its check was answered by a
reply that does not name the superuser, or not in time.  From then on no call asks for the password
of the method or runs anything with it, and a call that finds no method lists those that were marked
when it began as failed before.

A call that ends with the fault of a command passes this fault on; it says nothing about methods.

## Main definitions

* `FailsCheck`, `Failed`: a check fails, and a history in which one did
* `Note.Uses`: a method is used, or its password asked for
* `Marked`: the invariant of a profile and its history
* `Closes`: how a call ends that owes the mention of some methods

## Main results

* `checkReply_eq_failed_iff`: which answers fail a check
* `Marked.keeps_verify`, `Marked.keeps_tryMethods`: the contracts of the steps
* `Marked.keeps_ascend`, `Marked.fulfils_ascend`: the contract of a call
-/

namespace RemoteShell.Elevation

variable {k : Login} {l m : Method} {password : Option String} {p : Profile} {v : Option Profile}
  {h : List Note} {x : Note} {caller : CallId} {command : String} {timeout limit : Duration}

/-! ## What the history says -/

/-- **A check fails** with a reply that does not name the superuser, or with no reply in time.  A
reply that cannot be read says nothing, and neither does any other fault. -/
def FailsCheck (m : Method) : Except Fault Reply → Prop
  | .error f => f.kind = .commandTimeout
  | .ok r => r.exitCode ≠ 0 ∨ ∃ out, cleanedReply? m r = some out ∧ Text.trim out.stdout ≠ "root"

/-- The failed check of a method is heard. -/
def Note.Fails (x : Note) (m : Method) : Prop :=
  ∃ password limit a, x.deed = .hears (.run (.check m password limit)) a ∧ FailsCheck m a

/-- **A method is used**: a command is sent that was built with it, or its password is asked for. -/
def Note.Uses (x : Note) (m : Method) : Prop :=
  match x.deed with
  | .asks (.run (.check l ..)) | .asks (.run (.elevated l ..)) => l = m
  | .asks (.prompt message) => ∃ user, message = promptText x.key m user
  | _ => False

/-- The check of a method failed some time ago. -/
def Failed (m : Method) (h : List Note) : Prop := ∃ x ∈ h, x.Fails m

/-- A fault was heard last, in answer to a command. -/
def Told (f : Fault) (h : List Note) : Prop :=
  ∃ x e earlier, h = x :: earlier ∧ x.deed = .hears (.run e) (.error f)

/-- The methods that are marked failed; none before there is a profile. -/
def marksOf (v : Option Profile) : List Method := v.elim [] Profile.failed

/-- **The invariant of a profile and its history.** -/
structure Marked (k : Login) (v : Option Profile) (h : List Note) : Prop where
  keyed : ∀ x ∈ h, x.key = k
  heeded : ∀ later x earlier m, h = later ++ x :: earlier → Failed m earlier → ¬ x.Uses m
  marks : ∀ m, m ∈ marksOf v ↔ Failed m h
  -- A method is marked because it was tried, and it was tried because it is there.
  offered : ∀ p, v = some p → ∀ m ∈ p.failed, p.offers m = true

/-- **How a call ends** that owes the mention of some methods as failed before: it mentions them if
it finds no method, unless the fault is that of a command. -/
def Closes (k : Login) (mark : Deed → Note) (owed : List Method) (x : Ending)
    (v : Option Profile) (h : List Note) : Prop :=
  Marked k v (mark (.ends x.result) :: mark (.leaves v) :: h) ∧
    ∀ host attempts, x.result = .finished (.error (.elevationUnavailable host attempts)) →
      Told (.elevationUnavailable host attempts) h ∨
        ∀ m ∈ owed, ⟨m, .previouslyFailed⟩ ∈ attempts

/-- The answers that fail a check are those after which the method is marked. -/
theorem checkReply_eq_failed_iff {a : Except Fault Reply} :
    (∃ o, checkReply m a = some (.ok (some o))) ↔ FailsCheck m a := by
  cases a with
  | error f => cases f <;> simp [checkReply, FailsCheck, Fault.kind]
  | ok r =>
    have hsuccess : r.success = true ↔ r.exitCode = 0 := beq_iff_eq
    rw [checkReply, FailsCheck]
    by_cases hr : r.success = true
    · rw [if_pos hr]
      cases hc : cleanedReply? m r with
      | none => simp [hsuccess.mp hr]
      | some out =>
        by_cases ht : Text.trim out.stdout = "root" <;> simp [hsuccess.mp hr, ht]
    · rw [if_neg hr]
      simp [mt hsuccess.mpr hr]

/-- A check that breaks off does so with the fault of its command. -/
theorem eq_error_of_checkReply {a : Except Fault Reply} {f : Fault}
    (h : checkReply m a = some (.error f)) : a = .error f := by
  cases a with
  | error g => cases g <;> cases h <;> rfl
  | ok r =>
    rw [checkReply] at h
    split at h
    · obtain ⟨_, _, hr⟩ := Option.map_eq_some_iff.mp h
      cases hr
    · cases h

/-- A probe that breaks off the detection does so with the fault of its command. -/
theorem eq_error_of_probeAnswer {a : Except Fault Reply} {f : Fault}
    (h : probeAnswer a = .error f) : a = .error f := by
  cases a with
  | ok r => cases h
  | error g => cases g <;> cases h <;> rfl

/-! ## Questions for passwords -/

theorem promptText_su (k : Login) (user : String) :
    promptText k .su user = "Enter root password for su on " ++ (k.host ++ ":") := by
  unfold promptText
  split
  · exact String.append_assoc ..
  · next h => exact absurd rfl h

theorem promptText_of_ne_su (k : Login) (hm : m ≠ .su) (user : String) :
    promptText k m user =
      "Enter password for " ++ (user ++ "@" ++ k.host ++ " (") ++ m.name ++ "):" := by
  unfold promptText
  split
  · exact absurd rfl hm
  · simp only [String.append_assoc]

theorem promptText_su_ne (k : Login) (hm : m ≠ .su) (user user' : String) :
    promptText k .su user ≠ promptText k m user' := by
  rw [promptText_of_ne_su k hm, promptText_su]
  intro h
  have hchars := congrArg String.toList h
  simp only [String.toList_append, List.append_assoc] at hchars
  have hchar := congrArg (fun s : List Char => s[6]?) hchars
  have hsu : 6 < "Enter root password for su on ".toList.length := by decide
  have huser : 6 < "Enter password for ".toList.length := by decide
  rw [List.getElem?_append_left hsu, List.getElem?_append_left huser] at hchar
  exact absurd hchar (by decide)

/-- The question for a password says which method it is for. -/
theorem eq_of_promptText_eq {user user' : String}
    (h : promptText k m user = promptText k l user') : m = l := by
  by_cases hm : m = .su
  · by_cases hl : l = .su
    · exact hm.trans hl.symm
    · exact absurd (hm ▸ h) (promptText_su_ne k hl user user')
  by_cases hl : l = .su
  · exact absurd (hl ▸ h).symm (promptText_su_ne k hm user' user)
  rw [promptText_of_ne_su k hm, promptText_of_ne_su k hl] at h
  have hchars := congrArg String.toList h
  simp only [String.toList_append] at hchars
  have hnames := List.append_cancel_right hchars
  have hne (m : Method) : m.name.toList ≠ [] := by cases m <;> decide
  have hlast := congrArg List.getLast? hnames
  rw [List.getLast?_append_of_ne_nil _ (hne m), List.getLast?_append_of_ne_nil _ (hne l)] at hlast
  -- The last letter tells the names apart, but for two that are equally long.
  have hpair : m.name.toList.length = l.name.toList.length → m.name.toList = l.name.toList :=
    List.append_inj_right' hnames
  clear hne hnames hchars h
  revert hm hl hlast hpair
  cases m <;> cases l <;> decide

/-! ## Failed checks in a history -/

theorem Failed.cons (hf : Failed m h) (x : Note) : Failed m (x :: h) :=
  hf.imp fun _ hy => ⟨List.mem_cons_of_mem x hy.1, hy.2⟩

theorem failed_cons_iff : Failed m (x :: h) ↔ x.Fails m ∨ Failed m h := by
  simp [Failed]

/-- Only the answer to a check fails one. -/
theorem not_fails_hears {q : Query} (hq : ∀ m password limit, q ≠ .run (.check m password limit))
    (a : q.Answer) (m : Method) : ¬ (Note.mk caller k command timeout (.hears q a)).Fails m := by
  rintro ⟨password, limit, b, hdeed, -⟩
  exact hq m password limit (Deed.hears.inj hdeed).1

theorem not_fails_asks (q : Query) (m : Method) :
    ¬ (Note.mk caller k command timeout (.asks q)).Fails m := by
  rintro ⟨password, limit, b, hdeed, -⟩
  cases hdeed

theorem not_fails_leaves (m : Method) :
    ¬ (Note.mk caller k command timeout (.leaves v)).Fails m := by
  rintro ⟨password, limit, b, hdeed, -⟩
  cases hdeed

theorem not_fails_ends (r : Climb.Result) (m : Method) :
    ¬ (Note.mk caller k command timeout (.ends r)).Fails m := by
  rintro ⟨password, limit, b, hdeed, -⟩
  cases hdeed

namespace Marked

/-! ## Notes that keep the invariant -/

protected theorem empty (k : Login) : Marked k none [] where
  keyed := List.forall_mem_nil _
  heeded later x earlier m he := by simp at he
  marks m := by simp [marksOf, Failed]
  offered p hp := by cases hp

/-- A note that fails no check and does not use what failed. -/
theorem cons (hv : Marked k v h) (hkey : x.key = k) (hfails : ∀ m, ¬ x.Fails m)
    (huses : ∀ m, Failed m h → ¬ x.Uses m) : Marked k v (x :: h) where
  keyed := List.forall_mem_cons.mpr ⟨hkey, hv.keyed⟩
  heeded later y earlier m he hm := by
    cases later with
    | nil =>
      obtain ⟨rfl, rfl⟩ := List.cons.inj he
      exact huses m hm
    | cons z later => exact hv.heeded later y earlier m (List.cons.inj he).2 hm
  marks m := by rw [hv.marks, failed_cons_iff, or_iff_right (hfails m)]
  offered := hv.offered

theorem leaves (hv : Marked k v h) :
    Marked k v (.mk caller k command timeout (.leaves v) :: h) :=
  hv.cons rfl not_fails_leaves fun _ _ huses => huses

/-- The call ends, and leaves the profile as it is. -/
theorem ends (hv : Marked k v h) (r : Climb.Result) :
    Marked k v (.mk caller k command timeout (.ends r) :: .mk caller k command timeout (.leaves v)
      :: h) :=
  hv.leaves.cons rfl (not_fails_ends r) fun _ _ huses => huses

/-- A call that finds a method, or crashes, owes no mention. -/
theorem closes (hv : Marked k v h) {x : Ending} {owed : List Method}
    (hx : ∀ host attempts, x.result ≠ .finished (.error (.elevationUnavailable host attempts))) :
    Closes k (.mk caller k command timeout) owed x v h :=
  ⟨hv.ends _, fun host attempts hf => absurd hf (hx host attempts)⟩

/-- A profile with the same marks is kept. -/
theorem keep (hv : Marked k v h) (hfailed : ∀ m, m ∈ p.failed ↔ m ∈ marksOf v)
    (hoffers : ∀ m ∈ p.failed, p.offers m = true) : Marked k (some p) h where
  keyed := hv.keyed
  heeded := hv.heeded
  marks m := (hfailed m).trans (hv.marks m)
  offered q hq := by
    obtain rfl := Option.some.inj hq
    exact hoffers

/-- **A failed check is heard, and the method is marked.** -/
theorem markFailed (hv : Marked k (some p) h) (hoffers : p.offers m = true) {a : Except Fault Reply}
    (ha : FailsCheck m a) :
    Marked k (some (p.markFailed m))
      (.mk caller k command timeout (.hears (.run (.check m password limit)) a) :: h) where
  keyed := List.forall_mem_cons.mpr ⟨rfl, hv.keyed⟩
  heeded later y earlier l he hl := by
    cases later with
    | nil =>
      obtain ⟨rfl, rfl⟩ := List.cons.inj he
      exact id
    | cons z later => exact hv.heeded later y earlier l (List.cons.inj he).2 hl
  marks l := by
    have hnote : (Note.mk caller k command timeout
        (.hears (.run (.check m password limit)) a)).Fails l ↔ l = m := by
      constructor
      · rintro ⟨password', limit', b, hdeed, -⟩
        cases hdeed
        rfl
      · rintro rfl
        exact ⟨password, limit, a, rfl, ha⟩
    rw [failed_cons_iff, hnote, ← hv.marks l]
    exact List.mem_insert_iff
  offered q hq l hl := by
    obtain rfl := Option.some.inj hq
    have hsame : (p.markFailed m).offers l = p.offers l := by cases l <;> rfl
    rw [hsame]
    rcases List.mem_insert_iff.mp hl with rfl | hl
    · exact hoffers
    · exact hv.offered p rfl l hl

/-! ## Questions -/

section Questions

variable {α : Type} {post : α → Option Profile → List Note → Prop} {q : Query}
  {next : q.Answer → Talk α}

/-- A question that does not use what failed; the dialogue goes on with the answer. -/
theorem ask (hv : Marked k v h) (hq : q.Outward)
    (huses : ∀ m, Failed m h → ¬ (Note.mk caller k command timeout (.asks q)).Uses m)
    (hnext : ∀ a, Marked k v (.mk caller k command timeout (.asks q) ::
        .mk caller k command timeout (.leaves v) :: h) →
      Talk.Keeps (Marked k) (.mk caller k command timeout) post (next a) v
        (heard (.mk caller k command timeout) q a v h)) :
    Talk.Keeps (Marked k) (.mk caller k command timeout) post (.ask q next) v h := by
  have hasked : Marked k v (.mk caller k command timeout (.asks q) ::
      .mk caller k command timeout (.leaves v) :: h) := by
    refine hv.leaves.cons rfl (not_fails_asks q) fun m hm => huses m ?_
    exact (failed_cons_iff.mp hm).resolve_left (not_fails_leaves m)
  exact (Talk.keeps_ask hq).mpr ⟨hasked, fun a => hnext a hasked⟩

/-- A question that is no check leaves the marks as they are, whatever the answer. -/
theorem askOther (hv : Marked k v h) (hq : q.Outward)
    (hcheck : ∀ m password limit, q ≠ .run (.check m password limit))
    (huses : ∀ m, Failed m h → ¬ (Note.mk caller k command timeout (.asks q)).Uses m)
    (hnext : ∀ a, Marked k v (heard (.mk caller k command timeout) q a v h) →
      Talk.Keeps (Marked k) (.mk caller k command timeout) post (next a) v
        (heard (.mk caller k command timeout) q a v h)) :
    Talk.Keeps (Marked k) (.mk caller k command timeout) post (.ask q next) v h :=
  hv.ask hq huses fun a hasked =>
    hnext a (hasked.cons rfl (not_fails_hears hcheck a) fun _ _ huses => huses)

end Questions

/-! ## Detection -/

/-- A probe marks nothing. -/
theorem failed_record (q : Probe) (fallback : String) (hp : p.failed = []) (r : Option Reply) :
    (q.record fallback p r).failed = [] := by
  cases q with
  | groups =>
    rw [Probe.record]
    cases r.filter Reply.success with
    | none => exact hp
    | some r => exact hp
  | user => rfl
  | _ => exact hp

/-- What is known at the end of a detection: a profile without marks, or the fault of a probe. -/
def FoundOut (k : Login) (r : Except Fault Profile) (v : Option Profile) (h : List Note) : Prop :=
  v = none ∧ Marked k none h ∧
    match r with
    | .ok p => p.failed = []
    | .error f => Told f h

theorem keeps_detectWith (qs : List Probe) (hv : Marked k none h) (hp : p.failed = []) :
    Talk.Keeps (Marked k) (.mk caller k command timeout) (FoundOut k)
      (detectWith k.user limit qs p) none h := by
  induction qs generalizing p h with
  | nil => exact ⟨rfl, hv, hp⟩
  | cons q qs ih =>
    rw [detectWith]
    split
    · refine hv.askOther trivial (by simp) (fun _ _ huses => huses) fun a hv => ?_
      split
      · next f hf =>
        exact ⟨rfl, hv, _, _, _, rfl, by rw [eq_error_of_probeAnswer hf]⟩
      · next r _ => exact ih hv (failed_record q k.user hp r)
    · exact ih hv hp

/-! ## The steps for one method -/

/-- The password of a method is asked for that did not fail. -/
theorem keeps_passwordFor (hv : Marked k (some p) h) (hm : m ∉ p.failed) :
    Talk.Keeps (Marked k) (.mk caller k command timeout)
      (fun _ v h => v = some p ∧ Marked k (some p) h) (passwordFor k p m) (some p) h := by
  rw [passwordFor]
  split
  · split
    · exact ⟨rfl, hv⟩
    · refine hv.askOther trivial (by simp) (fun _ _ huses => huses) fun a hv => ?_
      cases a with
      | some s => exact ⟨rfl, hv⟩
      | none =>
        refine hv.askOther trivial (by simp) ?_ fun a hv => ?_
        · rintro l hl ⟨user, hprompt⟩
          obtain rfl := eq_of_promptText_eq hprompt
          exact hm ((hv.marks m).mpr hl)
        · cases a with
          | some s => exact ⟨rfl, hv⟩
          | none => exact ⟨rfl, hv⟩
  · exact ⟨rfl, hv⟩

/-- What a check leaves: the marks as they were, but for the method that failed. -/
def Judged (k : Login) (p : Profile) (m : Method) :
    Verdict → Option Profile → List Note → Prop
  | .trusted q, v, h => v = some q ∧ Marked k v h ∧ m ∉ q.failed
  | .failed q _, v, h => v = some q ∧ Marked k v h ∧ q = p.markFailed m
  | .broken f, v, h => Marked k v h ∧ Told f h
  | .unreadable, v, h => Marked k v h

/-- **The contract of a check.** -/
theorem keeps_verify (hv : Marked k (some p) h) (hm : m ∉ p.failed) (hoffers : p.offers m = true) :
    Talk.Keeps (Marked k) (.mk caller k command timeout) (Judged k p m)
      (verify limit k p m password) (some p) h := by
  have hunused : ∀ l, Failed l h → ¬ (Note.mk caller k command timeout
      (.asks (.run (.check m password limit)))).Uses l := by
    rintro l hl rfl
    exact hm ((hv.marks m).mpr hl)
  rw [verify]
  refine hv.ask trivial hunused fun a hasked => ?_
  rw [Dialogue.done_bind]
  -- An answer that fails no check leaves the marks as they are.
  have hheard (ha : ¬ FailsCheck m a) : Marked k (some p) (heard (.mk caller k command timeout)
      (.run (.check m password limit)) a (some p) h) := by
    refine hasked.cons rfl (fun l hl => ?_) fun _ _ huses => huses
    obtain ⟨_, _, b, hdeed, hb⟩ := hl
    cases hdeed
    exact ha hb
  have hfails : (∃ o, checkReply m a = some (.ok (some o))) ↔ FailsCheck m a :=
    checkReply_eq_failed_iff
  cases hcheck : checkReply m a with
  | none => exact hheard fun ha => by simp [hcheck] at hfails; exact hfails ha
  | some verdict =>
    cases verdict with
    | error f =>
      refine ⟨hheard fun hfailed => ?_, _, _, _, rfl, by rw [eq_error_of_checkReply hcheck]⟩
      obtain ⟨o, ho⟩ := hfails.mpr hfailed
      rw [hcheck] at ho
      cases ho
    | ok outcome =>
      cases outcome with
      | some o =>
        have hmarked : Marked k (some (p.markFailed m)) (heard (.mk caller k command timeout)
            (.run (.check m password limit)) a (some p) h) :=
          hasked.markFailed hoffers (hfails.mp ⟨o, hcheck⟩)
        change Talk.Keeps _ _ _
          (if m.needsPassword = true then
            .ask (.erase (secretName k m p.user)) fun _ => .done (Verdict.failed (p.markFailed m) o)
          else .done (Verdict.failed (p.markFailed m) o)) (some (p.markFailed m)) _
        split
        · exact hmarked.askOther trivial (by simp) (fun _ _ huses => huses)
            fun _ hv => ⟨rfl, hv, rfl⟩
        · exact ⟨rfl, hmarked, rfl⟩
      | none =>
        have hpassed : ¬ FailsCheck m a := fun ha => by
          obtain ⟨o, ho⟩ := hfails.mpr ha
          rw [hcheck] at ho
          cases ho
        have hsame : (p.trust m password).failed = p.failed := by cases password <;> rfl
        have hoffer (l : Method) : (p.trust m password).offers l = p.offers l := by
          cases password <;> cases l <;> rfl
        have htrusted : Marked k (some (p.trust m password)) (heard (.mk caller k command timeout)
            (.run (.check m password limit)) a (some p) h) := by
          refine (hheard hpassed).keep (fun l => by rw [hsame]; rfl) fun l hl => ?_
          rw [hoffer]
          exact hv.offered p rfl l (by rwa [hsame] at hl)
        cases password with
        | none => exact ⟨rfl, htrusted, by rwa [hsame]⟩
        | some s =>
          change Talk.Keeps _ _ _
            (.ask (.store (secretName k m p.user) s) fun _ =>
              .done (Verdict.trusted (p.trust m (some s)))) (some (p.trust m (some s))) _
          exact htrusted.askOther trivial (by simp) (fun _ _ huses => huses)
            fun _ hv => ⟨rfl, hv, by rwa [hsame]⟩

/-- **The contract of a run** with a method that did not fail. -/
theorem keeps_runWith (hv : Marked k (some p) h) (hm : m ∉ p.failed) (owed : List Method) :
    Talk.Keeps (Marked k) (.mk caller k command timeout)
      (Closes k (.mk caller k command timeout) owed)
      (runWith k p m password command timeout) (some p) h := by
  have hunused : ∀ l, Failed l h → ¬ (Note.mk caller k command timeout
      (.asks (.run (.elevated m password command timeout)))).Uses l := by
    rintro l hl rfl
    exact hm ((hv.marks m).mpr hl)
  rw [runWith]
  refine hv.askOther trivial (by simp) hunused fun a hv => ?_
  rw [Dialogue.done_bind]
  cases a with
  | error f =>
    refine ⟨hv.ends _, fun host attempts hf => .inl ?_⟩
    cases hf
    exact ⟨_, _, _, rfl, rfl⟩
  | ok raw =>
    dsimp only
    cases cleanedReply? m raw with
    | none => exact hv.closes (by simp [Ending.result])
    | some r =>
      change Talk.Keeps _ _ _
        (if (password.isSome && !r.success && passwordRejected m r) = true then
          .ask (.keep (p.forgetPassword m)) fun _ => .ask (.erase (secretName k m p.user)) fun _ =>
            .done (Ending.finished (.ok ⟨r, some m⟩))
        else .done (Ending.finished (.ok ⟨r, some m⟩))) (some p) _
      split
      · have hforgot : Marked k (some (p.forgetPassword m)) (heard (.mk caller k command timeout)
            (.run (.elevated m password command timeout)) (.ok raw) (some p) h) := by
          refine hv.keep (fun _ => Iff.rfl) fun l hl => ?_
          have hsame : (p.forgetPassword m).offers l = p.offers l := by cases l <;> rfl
          exact hsame.trans (hv.offered p rfl l hl)
        refine hforgot.askOther trivial (by simp) (fun _ _ huses => huses) fun _ hv => ?_
        exact hv.closes (by simp [Ending.result])
      · exact hv.closes (by simp [Ending.result])

/-! ## The loop and the call -/

/-- **The contract of the loop** over the methods: those that were marked before are mentioned, as
soon as their turn has come. -/
theorem keeps_tryMethods (ms : List Method) (passed : List Attempt) (owed : List Method)
    (hv : Marked k (some p) h)
    (howed : ∀ m ∈ owed, ⟨m, .previouslyFailed⟩ ∈ passed ∨ m ∈ ms ∧ m ∈ p.failed) :
    Talk.Keeps (Marked k) (.mk caller k command timeout)
      (Closes k (.mk caller k command timeout) owed)
      (tryMethods limit k command timeout ms p passed) (some p) h := by
  induction ms generalizing p passed h with
  | nil =>
    refine ⟨hv.ends _, fun host attempts hf => .inr fun m hm => ?_⟩
    cases hf
    exact (howed m hm).resolve_right fun hm => List.not_mem_nil hm.1
  | cons m ms ih =>
    -- What is owed after a method that was passed over for a reason that is not its mark.
    have hother {q : Profile} (o : Outcome) (hm : m ∉ p.failed)
        (hq : ∀ l ∈ p.failed, l ∈ q.failed) : ∀ l ∈ owed,
        ⟨l, .previouslyFailed⟩ ∈ passed ++ [⟨m, o⟩] ∨ l ∈ ms ∧ l ∈ q.failed := by
      intro l hl
      rcases howed l hl with hpassed | ⟨hmem, hfailed⟩
      · exact .inl (List.mem_append_left _ hpassed)
      · rcases List.mem_cons.mp hmem with rfl | hmem
        · exact absurd hfailed hm
        · exact .inr ⟨hmem, hq l hfailed⟩
    rw [tryMethods]
    split
    · next hoffers =>
      refine ih _ hv (hother _ (fun hm => ?_) fun _ => id)
      rw [hv.offered p rfl m hm] at hoffers
      cases hoffers
    split
    · refine ih _ hv fun l hl => ?_
      rcases howed l hl with hpassed | ⟨hmem, hfailed⟩
      · exact .inl (List.mem_append_left _ hpassed)
      · rcases List.mem_cons.mp hmem with rfl | hmem
        · exact .inl (List.mem_append_right _ List.mem_cons_self)
        · exact .inr ⟨hmem, hfailed⟩
    · next hoffers hfailed =>
      have hoffers : p.offers m = true := by simpa using hoffers
      have hm : m ∉ p.failed := mt List.contains_iff_mem.mpr hfailed
      refine (hv.keeps_passwordFor hm).bind fun r v h hr => ?_
      obtain ⟨rfl, hv⟩ := hr
      cases r with
      | error o => exact ih _ hv (hother o hm fun _ => id)
      | ok password =>
        dsimp only
        split
        · exact hv.keeps_runWith hm owed
        · refine (hv.keeps_verify hm hoffers).bind fun r v h hr => ?_
          cases r with
          | unreadable => exact hr.closes (by simp [Ending.result])
          | broken f =>
            obtain ⟨hv, htold⟩ := hr
            refine ⟨hv.ends _, fun host attempts hf => .inl ?_⟩
            cases hf
            exact htold
          | failed q o =>
            obtain ⟨rfl, hv, rfl⟩ := hr
            exact ih _ hv (hother o hm fun _ => List.mem_insert_of_mem)
          | trusted q =>
            obtain ⟨rfl, hv, hm⟩ := hr
            exact hv.keeps_runWith hm owed

theorem keeps_ascendFrom (settings : ElevationSettings) (hv : Marked k (some p) h)
    {owed : List Method} (howed : ∀ m ∈ owed, m ∈ p.failed) :
    Talk.Keeps (Marked k) (.mk caller k command timeout)
      (Closes k (.mk caller k command timeout) owed)
      (ascendFrom settings k command timeout p) (some p) h := by
  rw [ascendFrom]
  split
  · refine hv.askOther trivial (by simp) (fun _ _ huses => huses) fun a hv => ?_
    cases a with
    | error f =>
      refine ⟨hv.ends _, fun host attempts hf => .inl ?_⟩
      cases hf
      exact ⟨_, _, _, rfl, rfl⟩
    | ok r => exact hv.closes (by simp [Ending.result])
  · refine keeps_tryMethods _ _ _ hv fun m hm => .inr ⟨?_, howed m hm⟩
    cases m <;> decide

/-- **The contract of a call**: it keeps the invariant, and owes the mention of the methods that are
marked when it begins. -/
theorem keeps_ascend (settings : ElevationSettings) (hv : Marked k v h) :
    Talk.Keeps (Marked k) (.mk caller k command timeout)
      (Closes k (.mk caller k command timeout) (marksOf v))
      (ascend settings k command timeout v) v h := by
  cases v with
  | some p => exact keeps_ascendFrom settings hv fun _ => id
  | none =>
    refine (keeps_detectWith Probe.order hv rfl).bind fun r v h hr => ?_
    obtain ⟨rfl, hv, hr⟩ := hr
    cases r with
    | error f =>
      refine ⟨hv.ends _, fun host attempts hf => .inl ?_⟩
      cases hf
      exact hr
    | ok p =>
      have hfailed : p.failed = [] := hr
      have hkept : Marked k (some p) h := by
        refine hv.keep (fun m => by rw [hfailed]; rfl) fun m hm => ?_
        rw [hfailed] at hm
        exact absurd hm List.not_mem_nil
      exact keeps_ascendFrom settings hkept (List.forall_mem_nil _)

/-- **Every call keeps the invariant** of the profile of its login and of its history. -/
theorem fulfils_ascend (settings : ElevationSettings) : AllFulfil Marked settings :=
  fun _ _ _ _ _ _ hv => (hv.keeps_ascend settings).mono fun _ _ _ hx => hx.1

end Marked

end RemoteShell.Elevation
