import RemoteShell.Proofs.Elevation.Evidence
import RemoteShell.Proofs.Elevation.Soundness

/-!
# Checked before used

A method runs the caller's command only after it has been checked with the same password: earlier
in the history of the same profile, `whoami` was run with the method and the password and named the
superuser, and the profile has trusted both ever since.  A password is stored right after such a
check and at no other time, and what a call returns is the reply to the command of its caller.

The contracts follow the functions of a call one by one: detection, the password of a method, its
check, the run of the command, the loop over the methods.

## Main results

* `keeps_verify`, `fulfils_runWith`, `fulfils_tryMethods`: the contracts of the steps
* `fulfils_ascend`: every call keeps the invariant
* `lawful_of_run`: every note of any run is lawful
-/

namespace RemoteShell.Elevation

variable {k : Login} {m : Method} {password : Option String} {p : Profile} {v : Option Profile}
  {h : List Note} {x : Note} {caller : CallId} {command : String} {timeout limit : Duration}

/-! ## Detection -/

/-- Nothing has been learned yet. -/
def Profile.Blank (p : Profile) : Prop := p.verified = [] ∧ p.passwords = []

theorem Settled.of_blank (hp : p.Blank) (hu : Detected k p.user h) : Settled k p h where
  user := hu
  verified m hm := by
    rw [hp.1] at hm
    exact absurd hm List.not_mem_nil
  passwords m s hs := by
    rw [hp.2] at hs
    cases hs

/-- The probes but the first one find out nothing about the user. -/
theorem record_of_ne {q : Probe} (hq : q ≠ .user) (fallback : String) (p : Profile)
    (r : Option Reply) :
    (q.record fallback p r).user = p.user ∧ (p.Blank → (q.record fallback p r).Blank) := by
  cases q with
  | user => exact absurd rfl hq
  | groups =>
    rw [Probe.record]
    cases r.filter Reply.success with
    | none => exact ⟨rfl, id⟩
    | some r => exact ⟨rfl, id⟩
  | findSudo => exact ⟨rfl, id⟩
  | findDoas => exact ⟨rfl, id⟩
  | findSu => exact ⟨rfl, id⟩
  | trySudo => exact ⟨rfl, id⟩
  | tryDoas => exact ⟨rfl, id⟩

/-- What is known at the end of a detection: the user, and nothing that would have to be checked. -/
def FoundOut (k : Login) (r : Except Fault Profile) (v : Option Profile) (h : List Note) : Prop :=
  Vetted k v h ∧ ∀ p, r = .ok p → Detected k p.user h ∧ p.Blank

/-- The probes that follow keep the user that the first one found out. -/
theorem keeps_detectWith (qs : List Probe) (hqs : .user ∉ qs) (hv : Vetted k none h)
    (hu : Detected k p.user h) (hp : p.Blank) :
    Talk.Keeps (Vetted k) (.mk caller k command timeout) (FoundOut k)
      (detectWith k.user limit qs p) none h := by
  induction qs generalizing p h with
  | nil =>
    refine ⟨hv, fun p' hp' => ?_⟩
    obtain rfl := Except.ok.inj hp'
    exact ⟨hu, hp⟩
  | cons q qs ih =>
    obtain ⟨hq, hqs⟩ := not_or.mp (mt List.mem_cons.mpr hqs)
    rw [detectWith]
    split
    · have hquiet := quiet_probe (Ne.symm hq) limit
      refine hv.ask hquiet fun a hv' => ?_
      split
      · exact ⟨hv', fun p hp => by cases hp⟩
      · next r _ =>
        obtain ⟨huser, hblank⟩ := record_of_ne (Ne.symm hq) k.user p r
        refine ih hqs hv' ?_ (hblank hp)
        rw [huser]
        exact hu.heard hquiet a
    · exact ih hqs hv hu hp

theorem keeps_detect (hv : Vetted k none h) :
    Talk.Keeps (Vetted k) (.mk caller k command timeout) (FoundOut k) (detect k.user limit) none
      h := by
  have hwanted : Probe.user.wanted (.ofUser "") = true := rfl
  have hout : (Query.run (.probe Probe.user.command limit)).Outward := trivial
  rw [detect, Probe.order, detectWith, if_pos hwanted, Talk.keeps_ask hout]
  have hasked : Vetted k none
      (.mk caller k command timeout (.asks (.run (.probe Probe.user.command limit))) ::
        .mk caller k command timeout (.leaves none) :: h) := hv.leaves.quiet trivial
  refine ⟨hasked, fun a => ?_⟩
  have hheard : Vetted k none
      (heard (.mk caller k command timeout) (.run (.probe Probe.user.command limit)) a none h) :=
    hasked.cons rfl trivial fun p hp => absurd hp.symm (Option.some_ne_none p)
  split
  · exact ⟨hheard, fun p hp => by cases hp⟩
  · next r hr =>
    refine keeps_detectWith _ (by decide) hheard ?_ ⟨rfl, rfl⟩
    exact Since.begin ⟨rfl, limit, a, r, rfl, hr, rfl⟩

/-! ## The steps for one method -/

/-- What the password of a method is, when there is one. -/
def Supplies (p : Profile) (m : Method) (r : Except Outcome (Option String)) : Prop :=
  ∀ password, r = .ok password → password.isSome = m.needsPassword ∧
    ∀ s, p.passwords.get? m = some s → password = some s

/-- The password comes from the profile, if it is there. -/
theorem keeps_passwordFor (hv : Vetted k (some p) h) (m : Method) :
    Talk.Keeps (Vetted k) (.mk caller k command timeout)
      (fun r v h => v = some p ∧ Vetted k v h ∧ Supplies p m r) (passwordFor k p m) (some p) h := by
  rw [passwordFor]
  split
  · next hneeds =>
    split
    · next s hs =>
      refine ⟨rfl, hv, fun password hp => ?_⟩
      obtain rfl := Except.ok.inj hp
      exact ⟨hneeds.symm, fun t ht => hs.symm.trans ht⟩
    · next hs =>
      have hfresh (password : String) : Supplies p m (.ok (some password)) := by
        intro r hr
        obtain rfl := Except.ok.inj hr
        refine ⟨hneeds.symm, fun t ht => ?_⟩
        rw [hs] at ht
        cases ht
      have hdeclined : Supplies p m (.error .declined) := by
        intro password hp
        cases hp
      refine hv.ask trivial fun a hv => ?_
      cases a with
      | some s => exact ⟨rfl, hv, hfresh s⟩
      | none =>
        refine hv.ask trivial fun a hv => ?_
        cases a with
        | none => exact ⟨rfl, hv, hdeclined⟩
        | some s =>
          refine ⟨rfl, hv, ?_⟩
          split
          · exact hdeclined
          · exact hfresh s
  · next hneeds =>
    refine ⟨rfl, hv, fun password hp => ?_⟩
    obtain rfl := Except.ok.inj hp
    refine ⟨(Bool.eq_false_iff.mpr hneeds).symm, fun s hs => ?_⟩
    exact absurd ((hv.settled p rfl).needsPassword hs) hneeds

/-- A method that is verified is vouched for with the password that the profile has for it. -/
theorem Settled.vouched (hs : Settled k p h) (hm : m ∈ p.verified)
    {r : Except Outcome (Option String)} (hr : Supplies p m r) (hp : r = .ok password) :
    p.Trusts m password ∧ Vouched k m password h := by
  obtain ⟨password', htrusts, hvouched⟩ := hs.verified m hm
  obtain ⟨hasked, hknown⟩ := hr password hp
  have hsame : password = password' := by
    cases password' with
    | some s => exact hknown s htrusts.known
    | none =>
      rw [← htrusts.asked] at hasked
      exact Option.not_isSome_iff_eq_none.mp (by rw [hasked]; exact Bool.false_ne_true)
  rw [hsame]
  exact ⟨htrusts, hvouched⟩

/-- A check passes when its reply names the superuser, and not otherwise. -/
theorem checkReply_eq_passed_iff {a : Except Fault Reply} :
    checkReply m a = some (.ok none) ↔ ∃ r, a = .ok r ∧ NamesRoot m r := by
  cases a with
  | error f => cases f <;> simp [checkReply]
  | ok r =>
    have hsuccess : r.success = true ↔ r.exitCode = 0 := beq_iff_eq
    rw [checkReply]
    by_cases hr : r.success = true
    · rw [if_pos hr]
      cases hc : cleanedReply? m r with
      | none => simp [NamesRoot, hc]
      | some out =>
        by_cases ht : Text.trim out.stdout = "root" <;>
          simp [NamesRoot, hc, hsuccess.mp hr, ht]
    · rw [if_neg hr]
      simp [NamesRoot, mt hsuccess.mpr hr]

/-- **A password is stored** right after it passed its check. -/
theorem Vetted.store {α : Type} {x : α} {post : α → Option Profile → List Note → Prop}
    {q : Profile} {s : String} {r : Reply}
    (hv : Vetted k (some p) (heard (.mk caller k command timeout)
      (.run (.check m (some s) limit)) (.ok r) (some q) h))
    (hroot : NamesRoot m r) (ht : p.Trusts m (some s)) (hu : Detected k p.user h)
    (hpost : ∀ h, Vetted k (some p) h → Vouched k m (some s) h → post x (some p) h) :
    Talk.Keeps (Vetted k) (.mk caller k command timeout) post
      (.ask (.store (secretName k m p.user) s) fun _ => .done x) (some p)
      (heard (.mk caller k command timeout) (.run (.check m (some s) limit)) (.ok r) (some q)
        h) := by
  have hneeds : m.needsPassword = true := ht.asked.symm
  obtain ⟨kind, hkind⟩ := Option.isSome_iff_exists.mp hneeds
  have hname : secretName k m p.user = Vault.passwordOf kind.space p.user k.host k.port := by
    rw [secretName, hkind]
    rfl
  have hvouched : Vouched k m (some s) (heard (.mk caller k command timeout)
      (.run (.check m (some s) limit)) (.ok r) (some q) h) :=
    Since.begin ⟨rfl, limit, r, rfl, hroot⟩
  have hasked : Vetted k (some p)
      (.mk caller k command timeout (.asks (.store (secretName k m p.user) s)) ::
        .mk caller k command timeout (.leaves (some p)) ::
        heard (.mk caller k command timeout) (.run (.check m (some s) limit)) (.ok r) (some q)
          h) := by
    refine hv.leaves.deed ?_ id fun _ _ => trivial
    refine ⟨m, kind, p, limit, r, _, rfl, hroot, ht, hkind, ?_, hname⟩
    exact Since.cons (Since.cons hu id) id
  have hout : (Query.store (secretName k m p.user) s).Outward := trivial
  refine (Talk.keeps_ask hout).mpr ⟨hasked, fun a => ?_⟩
  exact hpost _ (hasked.quiet trivial) (hvouched.heard ht a)

/-- What a check leaves: a profile that trusts the method, or one without it. -/
def Judged (k : Login) (m : Method) (password : Option String) :
    Verdict → Option Profile → List Note → Prop
  | .trusted p, v, h => v = some p ∧ Vetted k v h ∧ p.Trusts m password ∧ Vouched k m password h
  | .failed p _, v, h => v = some p ∧ Vetted k v h
  | .broken _, v, h | .unreadable, v, h => Vetted k v h

/-- **The contract of a check.** -/
theorem keeps_verify (hv : Vetted k (some p) h) (hfailed : m ∉ p.failed) (hnew : m ∉ p.verified)
    (hasked : password.isSome = m.needsPassword) :
    Talk.Keeps (Vetted k) (.mk caller k command timeout) (Judged k m password)
      (verify limit k p m password) (some p) h := by
  have hdetected : Detected k p.user h := (hv.settled p rfl).user
  rw [verify]
  refine hv.ask trivial fun a hv => ?_
  rw [Dialogue.done_bind]
  have hsettled := hv.settled p rfl
  cases hcheck : checkReply m a with
  | none => exact hv
  | some verdict =>
    cases verdict with
    | error f => exact hv
    | ok outcome =>
      cases outcome with
      | some o =>
        have hkept := hv.keep (hsettled.markFailed m)
        change Talk.Keeps _ _ _
          (if m.needsPassword = true then
            .ask (.erase (secretName k m p.user)) fun _ => .done (Verdict.failed (p.markFailed m) o)
          else .done (Verdict.failed (p.markFailed m) o)) (some (p.markFailed m)) _
        split
        · exact hkept.ask trivial fun _ hv => ⟨rfl, hv⟩
        · exact ⟨rfl, hkept⟩
      | none =>
        obtain ⟨r, rfl, hroot⟩ := checkReply_eq_passed_iff.mp hcheck
        have hvouched : Vouched k m password (heard (.mk caller k command timeout)
            (.run (.check m password limit)) (.ok r) (some p) h) :=
          Since.begin ⟨rfl, limit, r, rfl, hroot⟩
        obtain ⟨hs, htrusts⟩ := hsettled.trust hfailed hnew hasked hvouched
        have hkept := hv.keep hs
        cases password with
        | none => exact ⟨rfl, hkept, htrusts, hvouched⟩
        | some s =>
          change Talk.Keeps _ _ _
            (.ask (.store (secretName k m p.user) s) fun _ =>
              .done (Verdict.trusted (p.trust m (some s)))) (some (p.trust m (some s))) _
          exact hkept.store hroot htrusts hdetected fun h hv hm => ⟨rfl, hv, htrusts, hm⟩

/-! ## The command -/

theorem LatestReply.cons {e : Errand} {r : Reply} {y : Note} (hr : LatestReply x e r h)
    (hy : ¬ y.deed.HearsReply) : LatestReply x e r (y :: h) :=
  Since.cons hr hy

/-- A question that runs nothing does not change which reply is the latest. -/
theorem LatestReply.heard {e : Errand} {r : Reply} (hr : LatestReply x e r h) {q : Query}
    {a : q.Answer} (hq : ¬ (Deed.hears q a).HearsReply) :
    LatestReply x e r (heard (.mk caller k command timeout) q a v h) :=
  ((hr.cons id).cons id).cons hq

/-- A call returns the reply to the command of its caller. -/
theorem Vetted.ends {out : Elevated} (hv : Vetted k v h)
    (hout : (Note.mk caller k command timeout (.ends (.finished (.ok out)))).Returns out h) :
    Vetted k v (.mk caller k command timeout (.ends (.finished (.ok out))) ::
      .mk caller k command timeout (.leaves v) :: h) := by
  refine hv.leaves.deed ?_ id fun _ _ => trivial
  change Note.Returns _ out _
  unfold Note.Returns at hout ⊢
  cases hm : out.method with
  | none =>
    rw [hm] at hout
    exact hout.cons id
  | some m =>
    rw [hm] at hout
    obtain ⟨password, raw, hreply, hclean⟩ := hout
    exact ⟨password, raw, hreply.cons id, hclean⟩

/-- **The contract of a run** with a method that is vouched for. -/
theorem fulfils_runWith (hv : Vetted k (some p) h) (ht : p.Trusts m password)
    (hm : Vouched k m password h) :
    Talk.Fulfils (Vetted k) (.mk caller k command timeout)
      (runWith k p m password command timeout) (some p) h := by
  have hasked : Vetted k (some p)
      (.mk caller k command timeout (.asks (.run (.elevated m password command timeout))) ::
        .mk caller k command timeout (.leaves (some p)) :: h) := by
    refine hv.leaves.deed ?_ id fun _ _ => trivial
    exact ⟨rfl, rfl, ht.asked, Since.cons hm ⟨p, rfl, ht⟩⟩
  have hout : (Query.run (.elevated m password command timeout)).Outward := trivial
  rw [runWith]
  refine (Talk.keeps_ask hout).mpr ⟨hasked, fun a => ?_⟩
  have hheard : Vetted k (some p) (heard (.mk caller k command timeout)
      (.run (.elevated m password command timeout)) a (some p) h) := hasked.quiet trivial
  rw [Dialogue.done_bind]
  cases a with
  | error f => exact hheard.leaves.quiet trivial
  | ok raw =>
    dsimp only
    cases hclean : cleanedReply? m raw with
    | none => exact hheard.leaves.quiet trivial
    | some r =>
      have hsettled := hheard.settled p rfl
      have hreply : LatestReply (.mk caller k command timeout (.ends (.finished (.ok ⟨r, some m⟩))))
          (.elevated m password command timeout) raw (heard (.mk caller k command timeout)
            (.run (.elevated m password command timeout)) (.ok raw) (some p) h) :=
        Since.begin rfl
      change Talk.Keeps _ _ _
        (if (password.isSome && !r.success && passwordRejected m r) = true then
          .ask (.keep (p.forgetPassword m)) fun _ => .ask (.erase (secretName k m p.user)) fun _ =>
            .done (Ending.finished (.ok ⟨r, some m⟩))
        else .done (Ending.finished (.ok ⟨r, some m⟩))) (some p) _
      split
      · refine (hheard.keep (hsettled.forgetPassword m)).ask trivial fun a hv => ?_
        exact hv.ends ⟨password, raw, hreply.heard id, hclean⟩
      · exact hheard.ends ⟨password, raw, hreply, hclean⟩

/-- **The contract of the loop** over the methods. -/
theorem fulfils_tryMethods (ms : List Method) (passed : List Attempt) (hv : Vetted k (some p) h) :
    Talk.Fulfils (Vetted k) (.mk caller k command timeout)
      (tryMethods limit k command timeout ms p passed) (some p) h := by
  induction ms generalizing p passed h with
  | nil => exact hv.leaves.quiet trivial
  | cons m ms ih =>
    rw [tryMethods]
    split
    · exact ih _ hv
    split
    · exact ih _ hv
    · next hfailed =>
      rw [Talk.Fulfils]
      refine (keeps_passwordFor hv m).bind fun r v h hr => ?_
      obtain ⟨rfl, hv, hsupplies⟩ := hr
      cases r with
      | error o => exact ih _ hv
      | ok password =>
        dsimp only
        split
        · next hverified =>
          obtain ⟨htrusts, hvouched⟩ :=
            (hv.settled p rfl).vouched (List.contains_iff_mem.mp hverified) hsupplies rfl
          exact fulfils_runWith hv htrusts hvouched
        · next hverified =>
          have hnew : m ∉ p.verified := mt List.contains_iff_mem.mpr hverified
          have hfresh : m ∉ p.failed := mt List.contains_iff_mem.mpr hfailed
          refine (keeps_verify hv hfresh hnew (hsupplies password rfl).1).bind fun r v h hr => ?_
          cases r with
          | unreadable => exact hr.leaves.quiet trivial
          | broken f => exact hr.leaves.quiet trivial
          | failed p o =>
            obtain ⟨rfl, hv⟩ := hr
            exact ih _ hv
          | trusted p =>
            obtain ⟨rfl, hv, htrusts, hvouched⟩ := hr
            exact fulfils_runWith hv htrusts hvouched

theorem fulfils_ascendFrom (settings : ElevationSettings) (hv : Vetted k (some p) h) :
    Talk.Fulfils (Vetted k) (.mk caller k command timeout)
      (ascendFrom settings k command timeout p) (some p) h := by
  rw [ascendFrom]
  split
  · refine hv.ask trivial fun a hv => ?_
    cases a with
    | error f => exact hv.leaves.quiet trivial
    | ok r =>
      have hreply : LatestReply (.mk caller k command timeout (.ends (.finished (.ok ⟨r, none⟩))))
          (.plain command timeout) r (heard (.mk caller k command timeout)
            (.run (.plain command timeout)) (.ok r) (some p) h) :=
        Since.begin rfl
      exact hv.ends hreply
  · exact fulfils_tryMethods _ _ hv

/-- **Every call keeps the invariant** of the profile of its login and of its history. -/
theorem fulfils_ascend (settings : ElevationSettings) : AllFulfil Vetted settings := by
  intro caller k command timeout v h hv
  cases v with
  | some p => exact fulfils_ascendFrom settings hv
  | none =>
    refine (keeps_detect hv).bind fun r v h hr => ?_
    obtain ⟨hv, hfound⟩ := hr
    cases r with
    | error f => exact hv.leaves.quiet trivial
    | ok p =>
      obtain ⟨hdetected, hblank⟩ := hfound p rfl
      exact fulfils_ascendFrom settings (hv.keep (.of_blank hblank hdetected))

/-! ## Any run -/

/-- **Checked before used**: in every run, whatever calls come on whatever logins, whatever they are
answered and however often profiles are forgotten, each note in the history of a profile is lawful.
-/
theorem lawful_of_run {settings : ElevationSettings} {es : List Event} {t : Traffic}
    (hrun : (Traffic.idle settings).run es = some t) {n : CellId} {later earlier : List Note}
    {x : Note} (hx : t.record n = later ++ x :: earlier) : x.Lawful earlier := by
  obtain ⟨k, v, hv⟩ := Traffic.inv_of_run Vetted.empty (fulfils_ascend settings) hrun n
  exact (hv.lawful later x earlier hx).2

/-- Two calls on a login.  The first one finds `sudo`, gets a password from the operator and checks
it; the second one waits for its turn, and finds the method checked. -/
def twoCalls : List Event :=
  [.call 0 ⟨"ann", "a", 22⟩ "id" (.ofSecs 60) none, .call 1 ⟨"ann", "a", 22⟩ "ls" (.ofSecs 60) none,
    -- The answers to the probes: only `command -v sudo` succeeds.
    .answer 0 (.replied (.error (.commandTimeout "a" (.ofSecs 15)))),
    .answer 0 (.replied (.error (.commandTimeout "a" (.ofSecs 15)))),
    .answer 0 (.replied (.ok ⟨"", "", 0⟩)),
    .answer 0 (.replied (.error (.commandTimeout "a" (.ofSecs 15)))),
    .answer 0 (.replied (.error (.commandTimeout "a" (.ofSecs 15)))),
    .answer 0 (.replied (.error (.commandTimeout "a" (.ofSecs 15)))),
    .answer 0 (.secret none), .answer 0 (.secret (some "pw")),
    .answer 0 (.replied (.ok ⟨"root\n", "", 0⟩)), .answer 0 .done,
    .answer 0 (.replied (.ok ⟨"uid=0", "", 0⟩)), .answer 1 .admitted]

/-- The second call runs its command at once, with a method that is vouched for. -/
theorem lawful_of_twoCalls :
    ∃ t earlier, (Traffic.idle ⟨.ofSecs 30, .ofSecs 15⟩).run twoCalls = some t ∧
      t.record 0 = .mk 1 ⟨"ann", "a", 22⟩ "ls" (.ofSecs 60)
        (.asks (.run (.elevated .sudoPassword (some "pw") "ls" (.ofSecs 60)))) :: earlier ∧
      Vouched ⟨"ann", "a", 22⟩ .sudoPassword (some "pw") earlier := by
  have hfirst : ((Traffic.idle ⟨.ofSecs 30, .ofSecs 15⟩).run twoCalls).bind
      (fun t => (t.record 0).head?) = some (.mk 1 ⟨"ann", "a", 22⟩ "ls" (.ofSecs 60)
        (.asks (.run (.elevated .sudoPassword (some "pw") "ls" (.ofSecs 60))))) := by rfl
  obtain ⟨t, hrun, hhead⟩ := Option.bind_eq_some_iff.mp hfirst
  obtain ⟨earlier, hrecord⟩ := List.head?_eq_some_iff.mp hhead
  have hnewest : t.record 0 = [] ++ _ :: earlier := hrecord
  have hlawful := lawful_of_run hrun hnewest
  exact ⟨t, earlier, hrun, hrecord, hlawful.2.2.2⟩

end RemoteShell.Elevation
