import RemoteShell.Proofs.Elevation.Sights
import RemoteShell.Proofs.Vault.Names

/-!
# Dialogues that differ in passwords

Two dialogues are alike if they ask the same but for passwords, and go on alike whatever passwords
they are told.  Elevation on two profiles that differ in their passwords is alike: a password is
passed on to the input of a command, to the profile and to the vault, and is only looked at to see
that there is one.

## Main definitions

* `Talk.Alike`: dialogues that differ in passwords
* `Verdict.Alike`: verdicts on a check that differ in passwords
* `Company.Alike`: companies that differ in passwords

## Main results

* `Talk.Alike.bind`: sequences
* `Talk.Alike.sight_eq`, `Talk.Alike.tell`: what can be seen of alike dialogues is the same, and
  companies that differ in passwords keep them alike
* `alike_ascend`: elevation on profiles that differ in passwords
-/

namespace RemoteShell

/-! ## Vaults -/

namespace Vault

variable (v : Vault) (name secret n : String)

theorem remembers_set : (v.set name secret).remembers = v.remembers := by
  unfold set
  split <;> rfl

theorem remembers_delete : (v.delete name).remembers = v.remembers := by
  unfold delete
  split <;> rfl

theorem isSome_get?_set :
    ((v.set name secret).get? n).isSome = if name = n then v.remembers else (v.get? n).isSome := by
  split
  · next hn =>
    subst hn
    cases hv : v.remembers with
    | true => rw [Secret.get?_set_self hv, Option.isSome_some]
    | false => simp [set, get?, hv]
  · next hn => rw [Secret.get?_set_of_ne v secret hn]

theorem isSome_get?_delete :
    ((v.delete name).get? n).isSome = if name = n then false else (v.get? n).isSome := by
  unfold delete get?
  split
  · dsimp only
    split
    · next hn => rw [hn, Assoc.get?_erase_self, Option.isSome_none]
    · next hn => rw [Assoc.get?_erase_of_ne _ (Ne.symm hn)]
  · simp

end Vault

namespace Elevation

/-! ## Profiles -/

namespace Profile

variable {p p' : Profile} {m : Method} {password password' : Option String}

/-- Profiles that differ in passwords differ in nothing else. -/
theorem exists_passwords (h : p.redacted = p'.redacted) :
    ∃ passwords, p' = { p with passwords := passwords } := by
  obtain ⟨user, isRoot, groups, hasSudo, sudoFree, sudoDenied, hasDoas, doasFree, doasDenied, hasSu,
    failed, verified, passwords⟩ := p
  refine ⟨p'.passwords, ?_⟩
  obtain ⟨user', isRoot', groups', hasSudo', sudoFree', sudoDenied', hasDoas', doasFree',
    doasDenied', hasSu', failed', verified', passwords'⟩ := p'
  simp only [redacted, mk.injEq] at h ⊢
  simp only [h, and_self]

theorem frame_eq (h : p.redacted = p'.redacted) :
    p'.isRoot = p.isRoot ∧ p'.offers = p.offers ∧ p'.failed = p.failed ∧
      p'.verified = p.verified := by
  obtain ⟨passwords, rfl⟩ := exists_passwords h
  exact ⟨rfl, rfl, rfl, rfl⟩

/-- They have passwords for the same methods. -/
theorem isSome_password_eq (h : p.redacted = p'.redacted) (m : Method) :
    (p.passwords.get? m).isSome = (p'.passwords.get? m).isSome := by
  have hm : (p.redacted.passwords.get? m).isSome = (p'.redacted.passwords.get? m).isSome := by
    rw [h]
  simpa [redacted] using hm

theorem redacted_forgetPassword (p : Profile) (m : Method) :
    (p.forgetPassword m).redacted = p.redacted.forgetPassword m := by
  simp only [forgetPassword, redacted, Assoc.erase_mapValues]

theorem redacted_markFailed (p : Profile) (m : Method) :
    (p.markFailed m).redacted = p.redacted.markFailed m := by
  simp only [markFailed, forgetPassword, redacted, Assoc.erase_mapValues]

theorem redacted_trust (p : Profile) (m : Method) (password : Option String) :
    (p.trust m password).redacted =
      p.redacted.trust m (password.map fun _ => Text.redacted) := by
  cases password with
  | none => rfl
  | some s =>
    simp only [trust, keepPassword, noteVerified, redacted, Option.map_some]
    rw [← Assoc.put_mapValues]

end Profile

/-- Without its text, a password is there or not. -/
theorem redacted_eq_of_isSome {password password' : Option String}
    (h : password.isSome = password'.isSome) :
    (password.map fun _ => Text.redacted) = password'.map fun _ => Text.redacted := by
  cases password <;> cases password' <;> trivial

/-! ## Alike dialogues -/

namespace Talk

variable {α β : Type} {R : α → α → Prop} {S : β → β → Prop}

/-- **Dialogues that differ in passwords**: they ask the same but for passwords, and go on alike at
answers that differ in passwords; they end with results that are related. -/
inductive Alike (R : α → α → Prop) : Talk α → Talk α → Prop where
  | done {x x' : α} (h : R x x') : Alike R (.done x) (.done x')
  | run {e e' : Errand} {next next' : Except Fault Reply → Talk α} (he : e.redacted = e'.redacted)
    (h : ∀ a, Alike R (next a) (next' a)) : Alike R (.ask (.run e) next) (.ask (.run e') next')
  -- The operator declines in both, or in none.
  | prompt {message : String} {next next' : Option String → Talk α}
    (h : ∀ a a', a.map String.isEmpty = a'.map String.isEmpty → Alike R (next a) (next' a')) :
    Alike R (.ask (.prompt message) next) (.ask (.prompt message) next')
  | fetch {name : String} {next next' : Option String → Talk α}
    (h : ∀ a a', a.isSome = a'.isSome → Alike R (next a) (next' a')) :
    Alike R (.ask (.fetch name) next) (.ask (.fetch name) next')
  | store {name secret secret' : String} {next next' : Unit → Talk α}
    (h : ∀ a, Alike R (next a) (next' a)) :
    Alike R (.ask (.store name secret) next) (.ask (.store name secret') next')
  | erase {name : String} {next next' : Unit → Talk α} (h : ∀ a, Alike R (next a) (next' a)) :
    Alike R (.ask (.erase name) next) (.ask (.erase name) next')
  | keep {p p' : Profile} {next next' : Unit → Talk α} (hp : p.redacted = p'.redacted)
    (h : ∀ a, Alike R (next a) (next' a)) : Alike R (.ask (.keep p) next) (.ask (.keep p') next')

/-- **Sequences** of alike dialogues. -/
theorem Alike.bind {t t' : Talk α} {f f' : α → Talk β} (ht : Alike R t t')
    (hf : ∀ x x', R x x' → Alike S (f x) (f' x')) : Alike S (t.bind f) (t'.bind f') := by
  induction ht with
  | done h => exact hf _ _ h
  | run he _ ih => exact .run he ih
  | prompt _ ih => exact .prompt ih
  | fetch _ ih => exact .fetch ih
  | store _ ih => exact .store ih
  | erase _ ih => exact .erase ih
  | keep hp _ ih => exact .keep hp ih

end Talk

/-! ## The functions of a call -/

variable {key : Login} {p p' : Profile} {m : Method} {password password' : Option String}
  {command : String} {timeout limit : Duration}

/-- Detection knows no passwords. -/
theorem alike_detectWith (fallback : String) (qs : List Probe) (p : Profile) :
    Talk.Alike Eq (detectWith fallback limit qs p) (detectWith fallback limit qs p) := by
  induction qs generalizing p with
  | nil => exact .done rfl
  | cons q qs ih =>
    rw [detectWith]
    split
    · refine .run rfl fun a => ?_
      split
      · exact .done rfl
      · exact ih _
    · exact ih p

theorem alike_passwordFor (key : Login) (hp : p.redacted = p'.redacted) (m : Method) :
    Talk.Alike (fun r r' => r.map Option.isSome = r'.map Option.isSome) (passwordFor key p m)
      (passwordFor key p' m) := by
  have hknown := Profile.isSome_password_eq hp m
  obtain ⟨passwords, rfl⟩ := Profile.exists_passwords hp
  rw [passwordFor, passwordFor]
  generalize p.passwords.get? m = known at hknown ⊢
  generalize { p with passwords := passwords }.passwords.get? m = known' at hknown ⊢
  split
  · cases known with
    | some s =>
      obtain ⟨s', rfl⟩ := Option.isSome_iff_exists.mp hknown.symm
      exact .done rfl
    | none =>
      obtain rfl : known' = none := by simpa using hknown.symm
      refine .fetch fun stored stored' hstored => ?_
      cases stored with
      | some s =>
        obtain ⟨s', rfl⟩ := Option.isSome_iff_exists.mp hstored.symm
        exact .done rfl
      | none =>
        obtain rfl : stored' = none := by simpa using hstored.symm
        refine .prompt fun said said' hsaid => ?_
        cases said with
        | none =>
          obtain rfl : said' = none := by simpa using hsaid.symm
          exact .done rfl
        | some s =>
          obtain ⟨s', rfl, hs⟩ := Option.map_eq_some_iff.mp hsaid.symm
          rw [Dialogue.done_bind, Dialogue.done_bind]
          dsimp only
          rw [hs]
          split <;> exact .done rfl
  · exact .done rfl

/-- Verdicts on a check that differ in passwords. -/
inductive Verdict.Alike : Verdict → Verdict → Prop where
  | trusted {p p' : Profile} (hp : p.redacted = p'.redacted) : Alike (.trusted p) (.trusted p')
  | failed {p p' : Profile} {o : Outcome} (hp : p.redacted = p'.redacted) :
    Alike (.failed p o) (.failed p' o)
  | broken {f : Fault} : Alike (.broken f) (.broken f)
  | unreadable : Alike .unreadable .unreadable

theorem alike_verify (key : Login) (hp : p.redacted = p'.redacted) (m : Method)
    (hpassword : password.isSome = password'.isSome) :
    Talk.Alike Verdict.Alike (verify limit key p m password)
      (verify limit key p' m password') := by
  have herrand : (Errand.check m password limit).redacted =
      (Errand.check m password' limit).redacted :=
    congrArg (Errand.check m · limit) (redacted_eq_of_isSome hpassword)
  have hfailed : (p.markFailed m).redacted = (p'.markFailed m).redacted := by
    rw [p.redacted_markFailed, hp, p'.redacted_markFailed]
  have htrusted : (p.trust m password).redacted = (p'.trust m password').redacted := by
    rw [p.redacted_trust, hp, redacted_eq_of_isSome hpassword, p'.redacted_trust]
  obtain ⟨passwords, rfl⟩ := Profile.exists_passwords hp
  rw [verify, verify]
  refine .run herrand fun a => ?_
  rw [Dialogue.done_bind, Dialogue.done_bind]
  cases checkReply m a with
  | none => exact .done .unreadable
  | some verdict =>
    cases verdict with
    | error f => exact .done .broken
    | ok outcome =>
      cases outcome with
      | some o =>
        refine .keep hfailed fun _ => ?_
        rw [Dialogue.done_bind, Dialogue.done_bind]
        split
        · exact .erase fun _ => .done (.failed hfailed)
        · exact .done (.failed hfailed)
      | none =>
        refine .keep htrusted fun _ => ?_
        rw [Dialogue.done_bind, Dialogue.done_bind]
        cases password with
        | none =>
          obtain rfl : password' = none := by simpa using hpassword.symm
          exact .done (.trusted htrusted)
        | some s =>
          obtain ⟨s', rfl⟩ := Option.isSome_iff_exists.mp hpassword.symm
          exact .store fun _ => .done (.trusted htrusted)

theorem alike_runWith (key : Login) (hp : p.redacted = p'.redacted) (m : Method)
    (hpassword : password.isSome = password'.isSome) :
    Talk.Alike Eq (runWith key p m password command timeout)
      (runWith key p' m password' command timeout) := by
  have herrand : (Errand.elevated m password command timeout).redacted =
      (Errand.elevated m password' command timeout).redacted :=
    congrArg (Errand.elevated m · command timeout) (redacted_eq_of_isSome hpassword)
  have hforgotten : (p.forgetPassword m).redacted = (p'.forgetPassword m).redacted := by
    rw [p.redacted_forgetPassword, hp, p'.redacted_forgetPassword]
  obtain ⟨passwords, rfl⟩ := Profile.exists_passwords hp
  rw [runWith, runWith]
  refine .run herrand fun a => ?_
  rw [Dialogue.done_bind, Dialogue.done_bind]
  cases a with
  | error f => exact .done rfl
  | ok raw =>
    dsimp only
    cases cleanedReply? m raw with
    | none => exact .done rfl
    | some r =>
      rw [hpassword]
      dsimp only
      split
      · exact .keep hforgotten fun _ => .erase fun _ => .done rfl
      · exact .done rfl

theorem alike_tryMethods (key : Login) (ms : List Method) (passed : List Attempt)
    (hp : p.redacted = p'.redacted) :
    Talk.Alike Eq (tryMethods limit key command timeout ms p passed)
      (tryMethods limit key command timeout ms p' passed) := by
  induction ms generalizing p p' passed with
  | nil => exact .done rfl
  | cons m ms ih =>
    obtain ⟨-, hoffers, hfailed, hverified⟩ := Profile.frame_eq hp
    rw [tryMethods, tryMethods, hoffers, hfailed, hverified]
    split
    · exact ih _ hp
    split
    · exact ih _ hp
    · refine (alike_passwordFor key hp m).bind fun r r' hr => ?_
      cases r with
      | error o =>
        cases r' with
        | error o' =>
          obtain rfl := Except.error.inj hr
          exact ih _ hp
        | ok password => cases hr
      | ok password =>
        cases r' with
        | error o => cases hr
        | ok password' =>
          have hpassword : password.isSome = password'.isSome := Except.ok.inj hr
          dsimp only
          split
          · exact alike_runWith key hp m hpassword
          · refine (alike_verify key hp m hpassword).bind fun v v' hv => ?_
            cases hv with
            | trusted hq => exact alike_runWith key hq m hpassword
            | failed hq => exact ih _ hq
            | broken => exact .done rfl
            | unreadable => exact .done rfl

theorem alike_ascendFrom (s : ElevationSettings) (key : Login) (hp : p.redacted = p'.redacted) :
    Talk.Alike Eq (ascendFrom s key command timeout p) (ascendFrom s key command timeout p') := by
  rw [ascendFrom, ascendFrom, (Profile.frame_eq hp).1]
  split
  · refine .run rfl fun a => ?_
    cases a <;> exact .done rfl
  · exact alike_tryMethods key _ _ hp

/-- **Elevation on profiles that differ in passwords** is alike. -/
theorem alike_ascend (s : ElevationSettings) (key : Login) {v v' : Option Profile}
    (hv : v.map Profile.redacted = v'.map Profile.redacted) :
    Talk.Alike Eq (ascend s key command timeout v) (ascend s key command timeout v') := by
  cases v with
  | some p =>
    obtain ⟨p', rfl, hp⟩ := Option.map_eq_some_iff.mp hv.symm
    exact alike_ascendFrom s key hp.symm
  | none =>
    obtain rfl : v' = none := Option.map_eq_none_iff.mp hv.symm
    refine (alike_detectWith key.user Probe.order _).bind fun r r' hr => ?_
    subst hr
    cases r with
    | error f => exact .done rfl
    | ok p => exact .keep rfl fun _ => alike_ascendFrom s key rfl

/-! ## Alike companies -/

/-- **Companies that differ in passwords**: the same replies, answers of the operator that are empty
in both or in none, and secrets under the same names. -/
structure Company.Alike (c c' : Company) : Prop where
  replies : c.replies = c'.replies
  replied : c.replied = c'.replied
  words : ∀ n, (c.words n).map String.isEmpty = (c'.words n).map String.isEmpty
  said : c.said = c'.said
  remembers : c.vault.remembers = c'.vault.remembers
  secrets : ∀ name, (c.vault.get? name).isSome = (c'.vault.get? name).isSome

namespace Company.Alike

variable {c c' : Company}

/-- A secret is stored, in both under the same name. -/
theorem set (h : c.Alike c') (name secret secret' : String) :
    Company.Alike { c with vault := c.vault.set name secret }
      { c' with vault := c'.vault.set name secret' } := by
  refine { h with remembers := ?_, secrets := fun n => ?_ }
  · rw [Vault.remembers_set, Vault.remembers_set, h.remembers]
  · rw [Vault.isSome_get?_set, Vault.isSome_get?_set, h.remembers, h.secrets]

theorem delete (h : c.Alike c') (name : String) :
    Company.Alike { c with vault := c.vault.delete name }
      { c' with vault := c'.vault.delete name } := by
  refine { h with remembers := ?_, secrets := fun n => ?_ }
  · rw [Vault.remembers_delete, Vault.remembers_delete, h.remembers]
  · rw [Vault.isSome_get?_delete, Vault.isSome_get?_delete, h.secrets]

end Company.Alike

namespace Talk.Alike

variable {α : Type} {R : α → α → Prop} {q q' : Query} {next : q.Answer → Talk α}
  {next' : q'.Answer → Talk α}

theorem exists_ask {t' : Talk α} (h : Talk.Alike R (.ask q next) t') :
    ∃ (q' : Query) (next' : q'.Answer → Talk α), t' = .ask q' next' := by
  cases h <;> exact ⟨_, _, rfl⟩

/-- **What can be seen** of the questions of alike dialogues is the same. -/
theorem sight_eq (h : Talk.Alike R (.ask q next) (.ask q' next'))
    (arrange : List Method → List Method) : q.sight arrange = q'.sight arrange := by
  cases h with
  | run he => rw [← Query.sight_redacted, he, Query.sight_redacted]
  | keep hp => exact Profile.sight_eq_of_redacted arrange (congrArg some hp)
  | _ => rfl

/-- **Companies that differ in passwords** keep dialogues alike. -/
theorem tell (h : Talk.Alike R (.ask q next) (.ask q' next')) {c c' : Company}
    (hc : c.Alike c') :
    Talk.Alike R (next (c.tell q).1) (next' (c'.tell q').1) ∧
      (c.tell q).2.Alike (c'.tell q').2 := by
  cases h with
  | run he hnext =>
    refine ⟨?_, { hc with replied := congrArg (· + 1) hc.replied }⟩
    rw [Company.tell, Company.tell, hc.replies, hc.replied]
    exact hnext _
  | prompt hnext =>
    refine ⟨hnext _ _ ?_, { hc with said := congrArg (· + 1) hc.said }⟩
    rw [Company.tell, Company.tell, hc.said]
    exact hc.words _
  | fetch hnext => exact ⟨hnext _ _ (hc.secrets _), hc⟩
  | store hnext => exact ⟨hnext (), hc.set _ _ _⟩
  | erase hnext => exact ⟨hnext (), hc.delete _⟩
  | keep hp hnext => exact ⟨hnext (), hc⟩

end Talk.Alike

end Elevation

end RemoteShell
