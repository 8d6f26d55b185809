import RemoteShell.Proofs.Elevation.Contract

/-!
# Evidence for a profile

What the history of a profile has to say before its passwords and checked methods may be relied on:
a method is vouched for with a password if a check named the superuser, and the profile has trusted
both ever since.  The invariant of a profile and its history says that all methods and passwords of
the profile are borne out, and that every note had what it needs before it.

## Main definitions

* `Profile.Trusts`: a method has passed its check with a password, and nothing spoke against it
* `Vouched`: since a check that named the superuser, the profile trusts a method with a password
* `Note.Lawful`: what has gone before a note
* `Vetted`: the invariant of a profile and its history

## Main results

* `Vetted.deed`, `Vetted.quiet`, `Vetted.ask`: deeds and questions that keep the invariant
* `Settled.trust`, `Settled.markFailed`, `Settled.forgetPassword`: what is learned is borne out
-/

namespace RemoteShell.Elevation

/-! ## What the history says -/

/-- **A profile trusts a method with a password**, or without one if the method asks for none. -/
structure Profile.Trusts (p : Profile) (m : Method) (password : Option String) : Prop where
  verified : m ∈ p.verified
  notFailed : m ∉ p.failed
  known : p.passwords.get? m = password
  asked : password.isSome = m.needsPassword

/-- The reply to a check names the superuser: it succeeded, and what it printed is `root`, the
prompts of the terminal and blanks around it taken out. -/
def NamesRoot (m : Method) (r : Reply) : Prop :=
  r.exitCode = 0 ∧ ∃ out, cleanedReply? m r = some out ∧ Text.trim out.stdout = "root"

namespace Deed

/-- The reply to a command is heard. -/
def HearsReply : Deed → Prop
  | .hears (.run _) _ => True
  | _ => False

/-- The answer to the probe for the user is heard. -/
def HearsUser : Deed → Prop
  | .hears (.run (.probe command _)) _ => command = Probe.user.command
  | _ => False

end Deed

namespace Note

/-- A check of a method with a password is answered with the name of the superuser. -/
def Checks (x : Note) (k : Login) (m : Method) (password : Option String) : Prop :=
  x.key = k ∧ ∃ limit r, x.deed = .hears (.run (.check m password limit)) (.ok r) ∧ NamesRoot m r

/-- If the profile is left, it trusts a method with a password. -/
def Trusting (x : Note) (m : Method) (password : Option String) : Prop :=
  match x.deed with
  | .leaves v => ∃ p, v = some p ∧ p.Trusts m password
  | _ => True

/-- The probe for the user is answered, and the user is this one. -/
def NamesUser (x : Note) (k : Login) (user : String) : Prop :=
  x.key = k ∧ ∃ limit a r, x.deed = .hears (.run (.probe Probe.user.command limit)) a ∧
    probeAnswer a = .ok r ∧ user = Probe.userOf k.user r

end Note

/-- **A method is vouched for** with a password: since a check that named the superuser, the profile
trusts them. -/
def Vouched (k : Login) (m : Method) (password : Option String) : List Note → Prop :=
  Since (·.Trusting m password) (·.Checks k m password)

/-- The user of a login, as the latest probe found out. -/
def Detected (k : Login) (user : String) : List Note → Prop :=
  Since (fun x => ¬ x.deed.HearsUser) (·.NamesUser k user)

/-- The latest command that was answered. -/
def LatestReply (x : Note) (e : Errand) (r : Reply) : List Note → Prop :=
  Since (fun y => ¬ y.deed.HearsReply) fun y => y = { x with deed := .hears (.run e) (.ok r) }

namespace Note

/-- A secret is stored right after a check that passed, by the same call: it is the password of the
check, and its name is that of the password of the detected user. -/
def StoresChecked (x : Note) (name secret : String) (earlier : List Note) : Prop :=
  ∃ m kind p limit r older,
    earlier = { x with deed := .leaves (some p) } ::
      { x with deed := .hears (.run (.check m (some secret) limit)) (.ok r) } :: older ∧
    NamesRoot m r ∧ p.Trusts m (some secret) ∧ m.passwordKind? = some kind ∧
    Detected x.key p.user older ∧
    name = Vault.passwordOf kind.space p.user x.key.host x.key.port

/-- What a call returns is the reply to the command of its caller, run with a method or as it is. -/
def Returns (x : Note) (out : Elevated) (earlier : List Note) : Prop :=
  match out.method with
  | some m => ∃ password raw,
    LatestReply x (.elevated m password x.command x.timeout) raw earlier ∧
      cleanedReply? m raw = some out.reply
  | none => LatestReply x (.plain x.command x.timeout) out.reply earlier

/-- **What has gone before a note.**  The command of the caller is run with a method that is vouched
for, secrets are stored after their check, and the reply to the command is returned. -/
def Lawful (x : Note) (earlier : List Note) : Prop :=
  match x.deed with
  | .asks (.run (.elevated m password command timeout)) =>
    command = x.command ∧ timeout = x.timeout ∧ password.isSome = m.needsPassword ∧
      Vouched x.key m password earlier
  | .asks (.store name secret) => x.StoresChecked name secret earlier
  | .ends (.finished (.ok out)) => x.Returns out earlier
  | _ => True

end Note

/-! ## The invariant -/

/-- A profile is borne out by its history. -/
structure Settled (k : Login) (p : Profile) (h : List Note) : Prop where
  user : Detected k p.user h
  verified : ∀ m ∈ p.verified, ∃ password, p.Trusts m password ∧ Vouched k m password h
  -- Only passwords that passed their check are kept.
  passwords : ∀ m s, p.passwords.get? m = some s → m ∈ p.verified

/-- **The invariant of a profile and its history.** -/
structure Vetted (k : Login) (v : Option Profile) (h : List Note) : Prop where
  lawful : ∀ later x earlier, h = later ++ x :: earlier → x.key = k ∧ x.Lawful earlier
  settled : ∀ p, v = some p → Settled k p h

/-- A deed that needs nothing before it, and puts nothing in doubt. -/
def Deed.Quiet : Deed → Prop
  | .asks (.run (.elevated ..)) | .asks (.store ..) => False
  | .hears (.run (.probe command _)) _ => ¬ command = Probe.user.command
  | .leaves _ => False
  | .ends (.finished (.ok _)) => False
  | _ => True

variable {k : Login} {m : Method} {password : Option String} {p : Profile} {v : Option Profile}
  {h : List Note} {x : Note} {caller : CallId} {command : String} {timeout limit : Duration}

theorem Vetted.empty (k : Login) : Vetted k none [] where
  lawful later x earlier he := by simp at he
  settled p hp := by cases hp

theorem Vetted.cons {w : Option Profile} (hv : Vetted k v h) (hkey : x.key = k)
    (hx : x.Lawful h) (hw : ∀ p, w = some p → Settled k p (x :: h)) : Vetted k w (x :: h) where
  lawful later y earlier he := by
    cases later with
    | nil =>
      obtain ⟨rfl, rfl⟩ := List.cons.inj he
      exact ⟨hkey, hx⟩
    | cons z later =>
      exact hv.lawful later y earlier (List.cons.inj he).2
  settled := hw

theorem Settled.cons (hs : Settled k p h) (huser : ¬ x.deed.HearsUser)
    (htrust : ∀ m password, p.Trusts m password → x.Trusting m password) :
    Settled k p (x :: h) where
  user := Since.cons hs.user huser
  verified m hm := by
    obtain ⟨password, htrusts, hvouched⟩ := hs.verified m hm
    exact ⟨password, htrusts, Since.cons hvouched (htrust m password htrusts)⟩
  passwords := hs.passwords

theorem Deed.Quiet.lawful {d : Deed} (hd : d.Quiet) :
    (Note.mk caller k command timeout d).Lawful h := by
  unfold Note.Lawful
  dsimp only
  split
  · exact False.elim hd
  · exact False.elim hd
  · exact False.elim hd
  · trivial

theorem Deed.Quiet.not_hearsUser {d : Deed} (hd : d.Quiet) : ¬ d.HearsUser := by
  unfold Deed.HearsUser
  split
  · exact hd
  · exact id

theorem Deed.Quiet.trusting {d : Deed} (hd : d.Quiet) (m : Method) (password : Option String) :
    (Note.mk caller k command timeout d).Trusting m password := by
  unfold Note.Trusting
  dsimp only
  split
  · exact False.elim hd
  · trivial

/-- A lawful deed that puts nothing in doubt. -/
theorem Vetted.deed (hv : Vetted k v h) {d : Deed}
    (hlawful : (Note.mk caller k command timeout d).Lawful h) (huser : ¬ d.HearsUser)
    (htrust : ∀ m password, (Note.mk caller k command timeout d).Trusting m password) :
    Vetted k v (.mk caller k command timeout d :: h) :=
  hv.cons rfl hlawful fun p hp =>
    (hv.settled p hp).cons huser fun m password _ => htrust m password

/-- A quiet deed keeps all as it is. -/
theorem Vetted.quiet (hv : Vetted k v h) {d : Deed} (hd : d.Quiet) :
    Vetted k v (.mk caller k command timeout d :: h) :=
  hv.deed hd.lawful hd.not_hearsUser hd.trusting

/-- The profile is left as it is. -/
theorem Vetted.leaves (hv : Vetted k v h) :
    Vetted k v (.mk caller k command timeout (.leaves v) :: h) :=
  hv.cons rfl trivial fun p hp =>
    (hv.settled p hp).cons id fun _ _ ht => ⟨p, hp, ht⟩

/-! ## Questions -/

/-- The history after a question was asked and answered. -/
def heard (mark : Deed → Note) (q : Query) (a : q.Answer) (v : Option Profile) (h : List Note) :
    List Note :=
  mark (.hears q a) :: mark (.asks q) :: mark (.leaves v) :: h

/-- A question that needs nothing before it, and puts nothing in doubt whatever the answer is. -/
def Query.Quiet : Query → Prop
  | .run (.probe command _) => ¬ command = Probe.user.command
  | .run (.elevated ..) | .store .. | .keep _ => False
  | _ => True

theorem Query.Quiet.outward {q : Query} (hq : q.Quiet) : q.Outward := by
  cases q with
  | keep p => exact False.elim hq
  | _ => trivial

theorem Query.Quiet.asks {q : Query} (hq : q.Quiet) : (Deed.asks q).Quiet := by
  cases q with
  | run e =>
    cases e with
    | elevated m password command timeout => exact False.elim hq
    | _ => trivial
  | store name secret => exact False.elim hq
  | _ => trivial

theorem Query.Quiet.hears {q : Query} (hq : q.Quiet) (a : q.Answer) : (Deed.hears q a).Quiet := by
  cases q with
  | run e =>
    cases e with
    | probe command limit => exact hq
    | _ => trivial
  | _ => trivial

theorem Detected.heard {user : String} (hu : Detected k user h) {q : Query} (hq : q.Quiet)
    (a : q.Answer) : Detected k user (heard (.mk caller k command timeout) q a v h) :=
  Since.cons (Since.cons (Since.cons hu id) id) (hq.hears a).not_hearsUser

theorem Vouched.heard (hm : Vouched k m password h) (ht : p.Trusts m password) {q : Query}
    (a : q.Answer) :
    Vouched k m password (heard (.mk caller k command timeout) q a (some p) h) :=
  Since.cons (Since.cons (Since.cons hm ⟨p, rfl, ht⟩) trivial) trivial

/-- A quiet question keeps all as it is. -/
theorem Vetted.ask {α : Type} {post : α → Option Profile → List Note → Prop} (hv : Vetted k v h)
    {q : Query} {next : q.Answer → Talk α} (hq : q.Quiet)
    (hnext : ∀ a, Vetted k v (heard (.mk caller k command timeout) q a v h) →
      Talk.Keeps (Vetted k) (.mk caller k command timeout) post (next a) v
        (heard (.mk caller k command timeout) q a v h)) :
    Talk.Keeps (Vetted k) (.mk caller k command timeout) post (.ask q next) v h := by
  rw [Talk.keeps_ask hq.outward]
  have hasked : Vetted k v (.mk caller k command timeout (.asks q) ::
      .mk caller k command timeout (.leaves v) :: h) := hv.leaves.quiet hq.asks
  exact ⟨hasked, fun a => hnext a (hasked.quiet (hq.hears a))⟩

theorem quiet_probe {q : Probe} (hq : q ≠ .user) (limit : Duration) :
    (Query.run (.probe q.command limit)).Quiet := by
  change q.command ≠ Probe.user.command
  cases q with
  | user => exact absurd rfl hq
  | _ => decide

/-! ## What is learned -/

/-- A password that a profile keeps was asked for. -/
theorem Settled.needsPassword (hs : Settled k p h) {s : String} (hm : p.passwords.get? m = some s) :
    m.needsPassword = true := by
  obtain ⟨password, htrusts, -⟩ := hs.verified m (hs.passwords m s hm)
  rw [← htrusts.asked, ← htrusts.known, hm]
  rfl

/-- A method loses its password and its check, and perhaps it is marked failed. -/
theorem Settled.forget (hs : Settled k p h) (m : Method) {failed : List Method}
    (hf : ∀ l, l ≠ m → l ∈ failed → l ∈ p.failed) :
    Settled k { p.forgetPassword m with failed := failed } h where
  user := hs.user
  verified l hl := by
    obtain ⟨hl, hne⟩ := List.mem_filter.mp hl
    have hlm : l ≠ m := of_decide_eq_true hne
    obtain ⟨password, htrusts, hvouched⟩ := hs.verified l hl
    refine ⟨password, ⟨List.mem_filter.mpr ⟨hl, hne⟩, ?_, ?_, htrusts.asked⟩, hvouched⟩
    · exact fun hfailed => htrusts.notFailed (hf l hlm hfailed)
    · exact (Assoc.get?_erase_of_ne _ hlm).trans htrusts.known
  passwords l s hl := by
    have hlm : l ≠ m := by
      rintro rfl
      exact absurd ((Assoc.get?_erase_self ..).symm.trans hl) nofun
    have hold : p.passwords.get? l = some s := (Assoc.get?_erase_of_ne _ hlm).symm.trans hl
    exact List.mem_filter.mpr ⟨hs.passwords l s hold, decide_eq_true hlm⟩

theorem Settled.markFailed (hs : Settled k p h) (m : Method) : Settled k (p.markFailed m) h := by
  refine hs.forget m fun l hlm hl => ?_
  rcases List.mem_insert_iff.mp hl with rfl | hl
  · exact absurd rfl hlm
  · exact hl

theorem Settled.forgetPassword (hs : Settled k p h) (m : Method) :
    Settled k (p.forgetPassword m) h :=
  hs.forget m fun _ _ hl => hl

/-- A method has passed its check. -/
theorem Settled.trust (hs : Settled k p h) (hfailed : m ∉ p.failed) (hnew : m ∉ p.verified)
    (hasked : password.isSome = m.needsPassword) (hvouched : Vouched k m password h) :
    Settled k (p.trust m password) h ∧ (p.trust m password).Trusts m password := by
  have hunknown : p.passwords.get? m = none := by
    cases hm : p.passwords.get? m with
    | none => rfl
    | some s => exact absurd (hs.passwords m s hm) hnew
  have hpasswords (l : Method) (hl : l ≠ m) :
      (p.trust m password).passwords.get? l = p.passwords.get? l := by
    cases password with
    | none => rfl
    | some s => exact Assoc.get?_put_of_ne _ _ hl
  have hverified : (p.trust m password).verified = p.verified.insert m := by
    cases password <;> rfl
  have hsame : (p.trust m password).failed = p.failed ∧ (p.trust m password).user = p.user := by
    cases password <;> exact ⟨rfl, rfl⟩
  have htrusts : (p.trust m password).Trusts m password := by
    refine ⟨?_, ?_, ?_, hasked⟩
    · rw [hverified]
      exact List.mem_insert_self
    · rw [hsame.1]
      exact hfailed
    · cases password with
      | none => exact hunknown
      | some s => exact Assoc.get?_put_self ..
  refine ⟨⟨?_, fun l hl => ?_, fun l s hl => ?_⟩, htrusts⟩
  · rw [hsame.2]
    exact hs.user
  · by_cases hlm : l = m
    · subst hlm
      exact ⟨password, htrusts, hvouched⟩
    · rw [hverified, List.mem_insert_iff] at hl
      obtain ⟨password', hold, hvouched'⟩ := hs.verified l (hl.resolve_left hlm)
      refine ⟨password', ⟨?_, ?_, ?_, hold.asked⟩, hvouched'⟩
      · rw [hverified, List.mem_insert_iff]
        exact hl
      · rw [hsame.1]
        exact hold.notFailed
      · rw [hpasswords l hlm]
        exact hold.known
  · rw [hverified, List.mem_insert_iff]
    by_cases hlm : l = m
    · exact .inl hlm
    · rw [hpasswords l hlm] at hl
      exact .inr (hs.passwords l s hl)

/-- A profile is kept that its history bears out. -/
theorem Vetted.keep (hv : Vetted k v h) (hs : Settled k p h) : Vetted k (some p) h where
  lawful := hv.lawful
  settled q hq := by
    obtain rfl := Option.some.inj hq
    exact hs

end RemoteShell.Elevation
