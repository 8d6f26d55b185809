import RemoteShell.Elevation.Ascent
import RemoteShell.Proofs.Dialogue.Questions

/-!
# What a call of elevation asks

A call acts for one account: the login it was made for, and the user that `whoami` named there.
Every prompt it shows and every name under which it looks up, stores or deletes a secret is made
from this account and from a method that asks for a password.  Which methods are there, what was
answered before and how the call ends makes no difference.

## Main definitions

* `Query.secret?`: the name of the secret that a question is about
* `Query.Regards`: a question on behalf of an account

## Main results

* `within_verify`, `within_tryMethods`: the contracts of the steps
* `all_ascendFrom`, `all_ascend`: the contract of a call
-/

namespace RemoteShell.Elevation

variable {k : Login} {user command : String} {timeout limit : Duration} {m : Method} {p : Profile}
  {password : Option String}

/-- The name of the secret that a question is about. -/
def Query.secret? : Query → Option String
  | .fetch name | .store name _ | .erase name => some name
  | _ => none

/-- **A question on behalf of an account**: anything may be run, but the prompts and the names of
secrets are those of the account, for a method that asks for a password. -/
inductive Query.Regards (k : Login) (user : String) : Query → Prop where
  | run (e : Errand) : Regards k user (.run e)
  | prompt {m : Method} (hm : m.needsPassword = true) :
    Regards k user (.prompt (promptText k m user))
  | fetch {m : Method} (hm : m.needsPassword = true) : Regards k user (.fetch (secretName k m user))
  | store {m : Method} (hm : m.needsPassword = true) (s : String) :
    Regards k user (.store (secretName k m user) s)
  | erase {m : Method} (hm : m.needsPassword = true) : Regards k user (.erase (secretName k m user))
  | keep {p : Profile} (hp : p.user = user) : Regards k user (.keep p)

@[simp] theorem Profile.user_markFailed (p : Profile) (m : Method) :
    (p.markFailed m).user = p.user := rfl

@[simp] theorem Profile.user_forgetPassword (p : Profile) (m : Method) :
    (p.forgetPassword m).user = p.user := rfl

@[simp] theorem Profile.user_trust (p : Profile) (m : Method) (password : Option String) :
    (p.trust m password).user = p.user := by
  cases password <;> rfl

/-! ## The steps for one method -/

/-- A password is only got for a method that asks for one. -/
theorem within_passwordFor (k : Login) (p : Profile) (m : Method) :
    (passwordFor k p m).Within (Query.Regards k p.user)
      fun r => ∀ s, r = .ok (some s) → m.needsPassword = true := by
  unfold passwordFor
  split
  · next hm =>
    cases p.passwords.get? m with
    | some s => exact fun _ _ => hm
    | none =>
      refine Dialogue.Within.bind (.question (.fetch hm)) fun stored _ => ?_
      cases stored with
      | some s => exact fun _ _ => hm
      | none =>
        refine Dialogue.Within.bind (.question (.prompt hm)) fun said _ => ?_
        cases said with
        | none =>
          intro s h
          cases h
        | some s => exact fun _ _ => hm
  · intro s h
    cases h

/-- A check leaves the user of the profile as it is. -/
theorem within_verify (hm : ∀ s, password = some s → m.needsPassword = true) :
    (verify limit k p m password).Within (Query.Regards k p.user) fun
      | .trusted p' | .failed p' _ => p'.user = p.user
      | .broken _ | .unreadable => True := by
  refine Dialogue.Within.bind (.question (.run _)) fun a _ => ?_
  split
  · exact trivial
  · exact trivial
  · refine Dialogue.Within.bind (.question (.keep (p.user_markFailed m))) fun _ _ => ?_
    split
    · next hneeds =>
      exact Dialogue.Within.bind (.question (.erase hneeds)) fun _ _ => p.user_markFailed m
    · exact p.user_markFailed m
  · refine Dialogue.Within.bind (.question (.keep (p.user_trust m password))) fun _ _ => ?_
    cases password with
    | none => exact p.user_trust m none
    | some s =>
      refine Dialogue.Within.bind (.question ?_) fun _ _ => p.user_trust m (some s)
      rw [Profile.user_trust]
      exact .store (hm s rfl) s

theorem within_runWith (hm : ∀ s, password = some s → m.needsPassword = true) :
    (runWith k p m password command timeout).Within (Query.Regards k p.user) fun _ => True := by
  refine Dialogue.Within.bind (.question (.run _)) fun a _ => ?_
  cases a with
  | error f => exact trivial
  | ok raw =>
    dsimp only
    cases cleanedReply? m raw with
    | none => exact trivial
    | some r =>
      dsimp only
      split
      · next hrejects =>
        have hsome : password.isSome = true := by simp_all
        obtain ⟨s, hs⟩ := Option.isSome_iff_exists.mp hsome
        refine Dialogue.Within.bind (.question (.keep (p.user_forgetPassword m))) fun _ _ => ?_
        exact Dialogue.Within.bind (.question (.erase (hm s hs))) fun _ _ => trivial
      · exact trivial

/-! ## The whole call -/

/-- The loop acts for the same account all the way: no method changes the user of the profile. -/
theorem within_tryMethods (ms : List Method) (passed : List Attempt) (hp : p.user = user) :
    (tryMethods limit k command timeout ms p passed).Within (Query.Regards k user)
      fun _ => True := by
  induction ms generalizing p passed with
  | nil => exact trivial
  | cons m ms ih =>
    subst hp
    rw [tryMethods]
    split
    · exact ih _ rfl
    · split
      · exact ih _ rfl
      · refine (within_passwordFor k p m).bind fun r hr => ?_
        cases r with
        | error o => exact ih _ rfl
        | ok password =>
          have hm : ∀ s, password = some s → m.needsPassword = true :=
            fun s hs => hr s (congrArg Except.ok hs)
          dsimp only
          split
          · exact within_runWith hm
          · refine (within_verify hm).bind fun v hv => ?_
            cases v with
            | trusted p' => exact hv ▸ within_runWith hm
            | failed p' o => exact ih _ hv
            | broken f => exact trivial
            | unreadable => exact trivial

/-- **What a call asks** on a login whose profile is known. -/
theorem all_ascendFrom (settings : ElevationSettings) (k : Login) (command : String)
    (timeout : Duration) (p : Profile) :
    (ascendFrom settings k command timeout p).All (Query.Regards k p.user) := by
  unfold ascendFrom
  split
  · refine Dialogue.all_iff_within.mpr (Dialogue.Within.bind (.question (.run _)) fun a _ => ?_)
    cases a with
    | error f => exact trivial
    | ok r => exact trivial
  · exact Dialogue.all_iff_within.mpr (within_tryMethods Method.order [] rfl)

/-- The detection only runs commands. -/
theorem within_detectWith (qs : List Probe) (fallback : String) (p : Profile) :
    (detectWith fallback limit qs p).Within (Query.Regards k user) fun _ => True := by
  induction qs generalizing p with
  | nil => exact trivial
  | cons q qs ih =>
    rw [detectWith]
    split
    · refine ⟨.run _, fun r => ?_⟩
      dsimp only
      cases probeAnswer r with
      | error f => exact trivial
      | ok r => exact ih _
    · exact ih _

/-- **What a call asks**, with the user that it was told or that the profile names. -/
theorem all_ascend (settings : ElevationSettings) (k : Login) (command : String)
    (timeout : Duration) (v : Option Profile) :
    (ascend settings k command timeout v).All fun q => ∃ user, q.Regards k user := by
  cases v with
  | some p => exact (all_ascendFrom settings k command timeout p).mono fun q hq => ⟨p.user, hq⟩
  | none =>
    have hdetect : (detect k.user settings.detectTimeout).Within
        (fun q => ∃ user, q.Regards k user) fun _ => True :=
      (within_detectWith Probe.order k.user _).mono (fun _ hq => ⟨k.user, hq⟩) fun _ h => h
    refine Dialogue.all_iff_within.mpr (hdetect.bind fun r _ => ?_)
    cases r with
    | error f => exact trivial
    | ok p =>
      refine ⟨⟨p.user, .keep rfl⟩, fun _ => Dialogue.all_iff_within.mp ?_⟩
      exact (all_ascendFrom settings k command timeout p).mono fun q hq => ⟨p.user, hq⟩

end RemoteShell.Elevation
