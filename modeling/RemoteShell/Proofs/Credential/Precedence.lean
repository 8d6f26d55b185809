import RemoteShell.Proofs.Credential.Surroundings

/-!
# Which credentials are used

The sources of credentials for a host stand in an order: the agent, if there is a socket for one,
the key file that is asked for, the standard key files, and last the operator's choice, which always
applies.  The first source that applies decides.  The sources in front of it have been asked whether
they apply and nothing else, those behind it have not been asked anything, and what the source comes
to is what the search comes to, be it a failure.

A jump host is searched for first, with its own user and key file, and has no jump host of its own.
If there are no credentials for it, nothing is asked for the target.

## Main definitions

* `Source`, `sources`: the sources of credentials for a host
* `Source.applies`, `Source.outcome`: whether a source applies, and what it comes to
* `DecidedBy`: the first source that applies decides

## Main results

* `search_decided`: one host
* `resolve_decided`: a target, and the jump host in front of it
-/

namespace RemoteShell.Credential

variable {w : Surroundings} {asked : List Query} {host user : String}

/-- A source of credentials. -/
inductive Source where
  | agent (socket : String)
  | explicit (path : String)
  | standard (path : String)
  | choice
  deriving DecidableEq, Repr

/-- **The sources of credentials** for a host, in order.  The socket that is set comes before the
one in the environment, and an empty one in the environment is none. -/
def sources (s : CredentialSettings) (e : Environment) (keyPath : Option String) : List Source :=
  (s.agentSocket.or ((e.text? "SSH_AUTH_SOCK").filter (!·.isEmpty))).toList.map .agent ++
    (keyPath.toList.map (fun path => .explicit (Path.expandHome e path)) ++
      (s.defaultKeys.map .standard ++ [.choice]))

namespace Source

/-- **A source applies**: an agent that holds keys, a standard key file that is there, and any key
file that is asked for. -/
def applies (w : Surroundings) (asked : List Query) : Source → Bool
  | .agent socket => w.holdsKeys asked socket
  | .explicit _ => true
  | .standard path => (w.files path).exists
  | .choice => true

/-- What is asked to find out whether a source applies. -/
def question? : Source → Option Query
  | .agent socket => some (.agent socket)
  | .explicit _ => none
  | .standard path => some (.read path)
  | .choice => none

/-- The offer of a key file, with the questions that loading it takes. -/
def ofKeyFile (w : Surroundings) (host path : String) (asked : List Query) :
    List Query × Except Fault Offer :=
  let (l, k) := (load path host).play w.answer asked
  (l, k.map Offer.ofKey)

/-- The offer that the operator chooses, with the questions that it takes.  To choose nothing and to
give no password are failures. -/
def ofChoice (w : Surroundings) (host user : String) (asked : List Query) :
    List Query × Except Fault Offer :=
  let nothing : Fault := .authenticationFailed user host
    "no SSH agent, key file or auth method available" false
  match w.choice asked host user with
  | none => ([.choose host user], .error nothing)
  | some (.password secret) =>
    ([.choose host user], if secret = "" then .error nothing else .ok (.ofPassword secret))
  | some (.keyFile path) =>
    let (l, r) := ofKeyFile w host path (asked ++ [.choose host user])
    (.choose host user :: l, r)
  | some .interactive => ([.choose host user], .ok .interactive)

/-- **What a source comes to** once it is known to apply: what is asked from then on, and the offer
or the fault. -/
def outcome (w : Surroundings) (host user : String) (asked : List Query) :
    Source → List Query × Except Fault Offer
  | .agent socket => ([], .ok (.ofAgent socket))
  | .explicit path => ofKeyFile w host path asked
  | .standard path => ofKeyFile w host path asked
  | .choice => ofChoice w host user asked

end Source

/-- **The first source that applies decides** on questions and a result: those up to it are asked
whether they apply, and the rest is what it comes to. -/
def DecidedBy (w : Surroundings) (host user : String) (asked : List Query) (xs : List Source)
    (l : List Query) (r : Except Fault Offer) : Prop :=
  ∃ before x after, xs = before ++ x :: after ∧
    (∀ y ∈ before, y.applies w asked = false) ∧ x.applies w asked = true ∧
    ∃ rest, l = (before ++ [x]).filterMap Source.question? ++ rest ∧
      (rest, r) = x.outcome w host user (asked ++ (before ++ [x]).filterMap Source.question?)

/-! ## One host -/

theorem play_loadOffer (path : String) :
    (loadOffer path host).play w.answer asked = Source.ofKeyFile w host path asked := by
  refine (Dialogue.play_bind _ _ _ _).trans ?_
  exact congrArg (·, _) (List.append_nil _)

theorem play_chosen :
    (chosen host user).play w.answer asked = Source.ofChoice w host user asked := by
  refine (Dialogue.play_question_bind _ _ _ _).trans ?_
  unfold Source.ofChoice
  simp only [Surroundings.answer]
  rcases w.choice asked host user with _ | (secret | path | _)
  · rfl
  · simp only [String.isEmpty_iff]
    split <;> rfl
  · exact congrArg (fun x : List Query × Except Fault Offer => (Query.choose host user :: x.1, x.2))
      (play_loadOffer path)
  · rfl

theorem filterMap_question? (x : Source) (xs : List Source) :
    (x :: xs).filterMap Source.question? =
      x.question?.toList ++ xs.filterMap Source.question? := by
  cases h : x.question? <;> simp [h]

/-- **A source that decides at once.** -/
theorem DecidedBy.here {x : Source} {xs : List Source} {rest : List Query}
    {r : Except Fault Offer} (hx : x.applies w asked = true)
    (hrest : (rest, r) = x.outcome w host user (asked ++ x.question?.toList)) :
    DecidedBy w host user asked (x :: xs) (x.question?.toList ++ rest) r := by
  have hquestion : ([] ++ [x]).filterMap Source.question? = x.question?.toList := by
    rw [List.nil_append, filterMap_question?, List.filterMap_nil, List.append_nil]
  refine ⟨[], x, xs, rfl, List.forall_mem_nil _, hx, rest, ?_, ?_⟩
  · rw [hquestion]
  · rw [hquestion, hrest]

/-- **A source that does not apply** leaves the decision to those behind it. -/
theorem DecidedBy.behind {x : Source} {xs : List Source} {l : List Query}
    {r : Except Fault Offer} (hx : x.applies w asked = false)
    (hsteady : ∀ y ∈ xs, y.applies w (asked ++ x.question?.toList) = y.applies w asked)
    (h : DecidedBy w host user (asked ++ x.question?.toList) xs l r) :
    DecidedBy w host user asked (x :: xs) (x.question?.toList ++ l) r := by
  obtain ⟨before, y, after, rfl, hbefore, hy, rest, rfl, hrest⟩ := h
  have hquestions : (x :: before ++ [y]).filterMap Source.question? =
      x.question?.toList ++ (before ++ [y]).filterMap Source.question? := filterMap_question? ..
  refine ⟨x :: before, y, after, rfl, List.forall_mem_cons.mpr ⟨hx, fun z hz => ?_⟩, ?_, rest,
    ?_, ?_⟩
  · rw [← hsteady z (List.mem_append_left _ hz), hbefore z hz]
  · rw [← hsteady y (List.mem_append_right _ List.mem_cons_self), hy]
  · rw [hquestions, List.append_assoc]
  · rw [hquestions, ← List.append_assoc, hrest]

/-- Whether a source applies hangs on what was asked before for agents only. -/
theorem Source.applies_congr {y : Source} (hy : ∀ socket, y ≠ .agent socket)
    (asked asked' : List Query) : y.applies w asked' = y.applies w asked := by
  cases y with
  | agent socket => exact absurd rfl (hy socket)
  | _ => rfl

/-- What the search does without an agent and without a key file that is asked for. -/
def standardOffer (host user : String) (paths : List String) : Talk (Except Fault Offer) :=
  (firstExisting paths).bind fun
    | some path => loadOffer path host
    | none => chosen host user

theorem standardOffer_cons (host user path : String) (paths : List String) :
    standardOffer host user (path :: paths) = (Talk.read path).bind fun file =>
      if file.exists then loadOffer path host else standardOffer host user paths := by
  unfold standardOffer
  rw [firstExisting, Dialogue.bind_assoc]
  congr 1
  funext file
  split <;> rfl

/-- The standard key files, and the operator behind them. -/
theorem standard_decided (paths : List String) (asked : List Query) :
    DecidedBy w host user asked (paths.map .standard ++ [.choice])
      ((standardOffer host user paths).play w.answer asked).1
      ((standardOffer host user paths).play w.answer asked).2 := by
  induction paths generalizing asked with
  | nil =>
    refine DecidedBy.here (x := .choice) rfl (play_chosen.trans ?_)
    exact congrArg _ (List.append_nil asked).symm
  | cons path paths ih =>
    rw [standardOffer_cons, Talk.read, Dialogue.play_question_bind, Surroundings.answer]
    split
    · next hfile => exact DecidedBy.here (x := .standard path) hfile (play_loadOffer path)
    · next hfile =>
      refine DecidedBy.behind (x := .standard path) (eq_false_of_ne_true hfile) (fun y hy => ?_)
        (ih _)
      exact Source.applies_congr (by rintro socket rfl; simp at hy) _ _

/-- What the search does without an agent. -/
def fileOffer (s : CredentialSettings) (e : Environment) (host user : String) :
    Option String → Talk (Except Fault Offer)
  | some path => loadOffer (Path.expandHome e path) host
  | none => standardOffer host user s.defaultKeys

/-- The key file that is asked for, and the sources behind it. -/
theorem file_decided (s : CredentialSettings) (e : Environment) (keyPath : Option String)
    (asked : List Query) :
    DecidedBy w host user asked
      (keyPath.toList.map (fun path => .explicit (Path.expandHome e path)) ++
        (s.defaultKeys.map .standard ++ [.choice]))
      ((fileOffer s e host user keyPath).play w.answer asked).1
      ((fileOffer s e host user keyPath).play w.answer asked).2 := by
  cases keyPath with
  | none => exact standard_decided _ _
  | some path =>
    refine DecidedBy.here (x := .explicit _) rfl ((play_loadOffer _).trans ?_)
    exact congrArg _ (List.append_nil asked).symm

theorem search_eq (s : CredentialSettings) (e : Environment) (host user : String)
    (keyPath : Option String) :
    search s e host user keyPath = (agentSocket (s.socket? e)).bind fun
      | some socket => .done (.ok (.ofAgent socket))
      | none => fileOffer s e host user keyPath := by
  unfold search
  refine congrArg (Dialogue.bind _) (funext fun socket => ?_)
  cases socket with
  | some socket => rfl
  | none => cases keyPath <;> rfl

/-- **One host**: the first source that applies decides. -/
theorem search_decided (s : CredentialSettings) (e : Environment) (host user : String)
    (keyPath : Option String) (w : Surroundings) (asked : List Query) :
    DecidedBy w host user asked (sources s e keyPath)
      ((search s e host user keyPath).play w.answer asked).1
      ((search s e host user keyPath).play w.answer asked).2 := by
  have hsocket : s.socket? e = s.agentSocket.or ((e.text? "SSH_AUTH_SOCK").filter (!·.isEmpty)) :=
    rfl
  rw [search_eq, hsocket, sources]
  cases s.agentSocket.or ((e.text? "SSH_AUTH_SOCK").filter (!·.isEmpty)) with
  | none => exact file_decided s e keyPath asked
  | some socket =>
    rw [agentSocket, Dialogue.bind_assoc, Talk.agent, Dialogue.play_question_bind,
      Surroundings.answer]
    cases hkeys : w.holdsKeys asked socket
    · refine DecidedBy.behind (x := .agent socket) hkeys (fun y hy => ?_)
        (file_decided s e keyPath _)
      exact Source.applies_congr (by rintro socket rfl; simp at hy) _ _
    · exact DecidedBy.here (x := .agent socket) hkeys rfl

/-! ## A target and its jump host -/

/-- A target without a jump host is searched for. -/
theorem play_resolve_none (s : CredentialSettings) (e : Environment) (host user : String)
    (keyPath : Option String) :
    (resolve s e host user keyPath none).play w.answer asked =
      (((search s e host user keyPath).play w.answer asked).1,
        ((search s e host user keyPath).play w.answer asked).2.map (⟨·, none⟩)) :=
  (Dialogue.play_bind _ _ _ _).trans (congrArg (·, _) (List.append_nil _))

/-- There are no credentials for the jump host, so nothing is asked for the target. -/
theorem play_resolve_of_error {s : CredentialSettings} {e : Environment} {keyPath : Option String}
    {j : Hop} {f : Fault}
    (hjump : ((search s e j.host j.user j.keyPath).play w.answer asked).2 = .error f) :
    (resolve s e host user keyPath (some j)).play w.answer asked =
      (((search s e j.host j.user j.keyPath).play w.answer asked).1, .error f) := by
  refine (Dialogue.play_bind _ _ _ _).trans ?_
  rw [hjump]
  exact congrArg (·, _) (List.append_nil _)

/-- The target is searched for after its jump host. -/
theorem play_resolve_of_ok {s : CredentialSettings} {e : Environment} {keyPath : Option String}
    {j : Hop} {h : Offer} {l : List Query}
    (hjump : (search s e j.host j.user j.keyPath).play w.answer asked = (l, .ok h)) :
    (resolve s e host user keyPath (some j)).play w.answer asked =
      (l ++ ((search s e host user keyPath).play w.answer (asked ++ l)).1,
        ((search s e host user keyPath).play w.answer (asked ++ l)).2.map (⟨·, some h⟩)) := by
  have htarget : ((search s e host user keyPath).bind fun r =>
      .done (r.map fun o => (⟨o, some h⟩ : Offers))).play w.answer (asked ++ l) =
        (((search s e host user keyPath).play w.answer (asked ++ l)).1,
          ((search s e host user keyPath).play w.answer (asked ++ l)).2.map (⟨·, some h⟩)) :=
    (Dialogue.play_bind _ _ _ _).trans (congrArg (·, _) (List.append_nil _))
  refine (Dialogue.play_bind _ _ _ _).trans ?_
  rw [hjump]
  exact congrArg (fun x : List Query × Except Fault Offers => (l ++ x.1, x.2)) htarget

/-- **A target, and the jump host in front of it.**  The jump host is searched for first, like any
host.  If there are no credentials for it, its fault is the result and nothing else is asked. -/
theorem resolve_decided (s : CredentialSettings) (e : Environment) (host user : String)
    (keyPath : Option String) (hop : Option Hop) (w : Surroundings) (asked : List Query) :
    match hop with
    | none => ∃ l r, DecidedBy w host user asked (sources s e keyPath) l r ∧
        (resolve s e host user keyPath none).play w.answer asked = (l, r.map (⟨·, none⟩))
    | some j => ∃ l r, DecidedBy w j.host j.user asked (sources s e j.keyPath) l r ∧
        match r with
        | .error f => (resolve s e host user keyPath (some j)).play w.answer asked = (l, .error f)
        | .ok h => ∃ l' r', DecidedBy w host user (asked ++ l) (sources s e keyPath) l' r' ∧
            (resolve s e host user keyPath (some j)).play w.answer asked =
              (l ++ l', r'.map (⟨·, some h⟩)) := by
  cases hop with
  | none =>
    exact ⟨_, _, search_decided s e host user keyPath w asked, play_resolve_none ..⟩
  | some j =>
    refine ⟨_, _, search_decided s e j.host j.user j.keyPath w asked, ?_⟩
    cases hjump : ((search s e j.host j.user j.keyPath).play w.answer asked).2 with
    | error f => exact play_resolve_of_error hjump
    | ok h =>
      exact ⟨_, _, search_decided s e host user keyPath w _,
        play_resolve_of_ok (Prod.ext rfl hjump)⟩

end RemoteShell.Credential
