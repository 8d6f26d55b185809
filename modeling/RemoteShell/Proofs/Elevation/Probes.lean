import Mathlib.Logic.Function.Basic
import RemoteShell.Proofs.Dialogue.Plays
import RemoteShell.Proofs.Elevation.Moves

/-!
# What a detection hears

A detection sends its probes in a fixed order, and each of them at most once, so what it comes to is
a matter of one reply to each probe, whoever runs the commands.  A command that is not finished in
time says as much as one that fails without a word; any other fault is the last thing that the
detection hears, and its result.

## Main definitions

* `Silent`: a reply that fails and says nothing
* `Respondent`, `Respondent.silenced`: whoever answers, and the same one who fails in silence where
  a command was not finished in time
* `survey`: a detection that no fault ends
* `Heeds`: what a detection makes of the replies
* `Probe.schedule`: the probes of a login

## Main results

* `play_detectWith_silenced`: a command that is not finished in time counts as one that fails
* `exists_heeds`: every detection makes something of the replies to its probes
* `survey_order_fst`, `survey_order_snd`: what is sent and what is found out, if no fault ends it
-/

namespace RemoteShell.Elevation

variable {fallback : String} {timeout : Duration} {asked : List Query} {p : Profile} {q : Probe}
  {qs sent : List Probe} {r : Reply} {f : Fault}

/-! ## Whoever answers -/

/-- **A reply that fails and says nothing.** -/
structure Silent (r : Reply) : Prop where
  fails : r.success = false
  stdout : r.stdout = ""
  stderr : r.stderr = ""

/-- **Whoever answers the questions**: what they say may hang on everything that was asked
before. -/
abbrev Respondent : Type := List Query → (q : Query) → q.Answer

/-- **The same respondent**, but a command that is not finished in time fails with some other
reply. -/
def Respondent.silenced (silence : List Query → Errand → Reply) (answer : Respondent) :
    Respondent := fun asked q =>
  match q with
  | .run e =>
    match answer asked (.run e) with
    | .error (.commandTimeout ..) => .ok (silence asked e)
    | a => a
  | q => answer asked q

/-- The question that sends a probe. -/
abbrev Probe.query (timeout : Duration) (q : Probe) : Query := .run (.probe q.command timeout)

variable {answer : Respondent} {silence : List Query → Errand → Reply}

/-- A detection cannot tell a reply that fails and says nothing from none. -/
theorem record_silent (hr : Silent r) (q : Probe) (fallback : String) (p : Profile) :
    q.record fallback p (some r) = q.record fallback p none := by
  have hfilter : (some r).filter Reply.success = none := by simp [hr.fails]
  have hsucceeded : Probe.succeeded (some r) = false := hr.fails
  have hrefused : Probe.refused (some r) = false := by
    rw [Probe.refused, Option.any_some, hr.stdout, hr.stderr]
    decide
  cases q with
  | user => exact congrArg Profile.ofUser (by rw [Probe.userOf, hfilter]; rfl)
  | groups => simp only [Probe.record, hfilter, Option.filter_none]
  | findSudo | findDoas | findSu => simp only [Probe.record, hsucceeded]; rfl
  | trySudo | tryDoas => simp only [Probe.record, hsucceeded, hrefused]; rfl

/-- What is made of an answer, where a command was not finished in time or not. -/
theorem probeAnswer_silenced (answer : Respondent) (silence : List Query → Errand → Reply)
    (asked : List Query) (timeout : Duration) (q : Probe) :
    probeAnswer (answer.silenced silence asked (q.query timeout)) =
        probeAnswer (answer asked (q.query timeout)) ∨
      probeAnswer (answer asked (q.query timeout)) = .ok none ∧
        probeAnswer (answer.silenced silence asked (q.query timeout)) =
          .ok (some (silence asked (.probe q.command timeout))) := by
  rw [Respondent.silenced]
  cases answer asked (q.query timeout) with
  | ok r => exact .inl rfl
  | error f =>
    cases f with
    | commandTimeout => exact .inr ⟨rfl, rfl⟩
    | _ => exact .inl rfl

/-- **A probe that is sent**: a fault ends the detection, and what it finds out goes on record. -/
theorem play_detectWith_cons (hq : q.wanted p = true) :
    (detectWith fallback timeout (q :: qs) p).play answer asked =
      match probeAnswer (answer asked (q.query timeout)) with
      | .error f => ([q.query timeout], .error f)
      | .ok a =>
        (q.query timeout ::
            ((detectWith fallback timeout qs (q.record fallback p a)).play answer
              (asked ++ [q.query timeout])).1,
          ((detectWith fallback timeout qs (q.record fallback p a)).play answer
            (asked ++ [q.query timeout])).2) := by
  rw [detectWith, if_pos hq, Dialogue.play_ask]
  cases probeAnswer (answer asked (q.query timeout)) <;> rfl

/-- **A command that is not finished in time counts as one that fails** without a word: the same
probes are sent, and the detection comes to the same. -/
theorem play_detectWith_silenced (hsilence : ∀ asked e, Silent (silence asked e)) :
    (detectWith fallback timeout qs p).play (answer.silenced silence) asked =
      (detectWith fallback timeout qs p).play answer asked := by
  induction qs generalizing p asked with
  | nil => rfl
  | cons q qs ih =>
    by_cases hq : q.wanted p = true
    · rw [play_detectWith_cons hq, play_detectWith_cons hq]
      rcases probeAnswer_silenced answer silence asked timeout q with h | ⟨hlate, h⟩
      · rw [h]
        simp only [ih]
      · rw [h, hlate]
        simp only [record_silent (hsilence asked _), ih]
    · rw [detectWith, if_neg hq]
      exact ih

/-! ## What becomes of the replies -/

/-- **A detection that no fault ends**: the probes that are sent, and what they find out. -/
def survey (fallback : String) (reply : Probe → Option Reply) :
    List Probe → Profile → List Probe × Profile
  | [], p => ([], p)
  | q :: qs, p =>
    if q.wanted p then
      (q :: (survey fallback reply qs (q.record fallback p (reply q))).1,
        (survey fallback reply qs (q.record fallback p (reply q))).2)
    else survey fallback reply qs p

/-- **The replies to the probes that are sent**: each is the answer after those before it. -/
def Respondent.Replies (answer : Respondent) (timeout : Duration)
    (reply : Probe → Except Fault Reply) (asked : List Query) (sent : List Probe) : Prop :=
  ∀ before q after, sent = before ++ q :: after →
    answer (asked ++ before.map (Probe.query timeout)) (q.query timeout) = reply q

/-- **What a detection makes of the replies.**  It goes on until a fault ends it, and a command that
is not finished in time is no such fault. -/
structure Heeds (fallback : String) (reply : Probe → Except Fault Reply) (qs : List Probe)
    (p : Profile) (sent : List Probe) (found : Except Fault Profile) : Prop where
  due : sent <+: (survey fallback (fun q => (reply q).toOption) qs p).1
  breaks : ∀ q ∈ sent, ∀ f, reply q = .error f → f.kind ≠ .commandTimeout → found = .error f
  broken : ∀ f, found = .error f →
    ∃ q, sent.getLast? = some q ∧ reply q = .error f ∧ f.kind ≠ .commandTimeout
  finds : ∀ p', found = .ok p' → (sent, p') = survey fallback (fun q => (reply q).toOption) qs p

theorem survey_of_wanted {reply : Probe → Option Reply} (hq : q.wanted p = true) :
    survey fallback reply (q :: qs) p =
      (q :: (survey fallback reply qs (q.record fallback p (reply q))).1,
        (survey fallback reply qs (q.record fallback p (reply q))).2) := if_pos hq

theorem survey_of_not_wanted {reply : Probe → Option Reply} (hq : q.wanted p = false) :
    survey fallback reply (q :: qs) p = survey fallback reply qs p :=
  if_neg (Bool.eq_false_iff.mp hq)

theorem survey_congr {reply reply' : Probe → Option Reply} (h : ∀ q ∈ qs, reply q = reply' q) :
    survey fallback reply qs p = survey fallback reply' qs p := by
  induction qs generalizing p with
  | nil => rfl
  | cons q qs ih =>
    obtain ⟨hq, hqs⟩ := List.forall_mem_cons.mp h
    rw [survey, survey, hq, ih hqs, ih hqs]

theorem mem_of_mem_survey {reply : Probe → Option Reply} (h : q ∈ (survey fallback reply qs p).1) :
    q ∈ qs := by
  induction qs generalizing p with
  | nil => exact h
  | cons q' qs ih =>
    rw [survey] at h
    split at h
    · rcases List.mem_cons.mp h with rfl | h
      · exact List.mem_cons_self
      · exact List.mem_cons_of_mem _ (ih h)
    · exact List.mem_cons_of_mem _ (ih h)

namespace Respondent.Replies

variable {reply reply' : Probe → Except Fault Reply}

theorem nil : answer.Replies timeout reply asked [] :=
  fun _ _ _ h => absurd h.symm (List.append_ne_nil_of_right_ne_nil _ (List.cons_ne_nil _ _))

theorem cons (hq : answer asked (q.query timeout) = reply q)
    (h : answer.Replies timeout reply (asked ++ [q.query timeout]) sent) :
    answer.Replies timeout reply asked (q :: sent) := by
  intro before q' after hsent
  cases before with
  | nil =>
    obtain ⟨rfl, -⟩ := List.cons.inj hsent
    rw [List.map_nil, List.append_nil]
    exact hq
  | cons q'' before =>
    obtain ⟨rfl, hrest⟩ := List.cons.inj hsent
    rw [List.map_cons, List.append_cons]
    exact h before q' after hrest

theorem congr (h : answer.Replies timeout reply asked sent)
    (heq : ∀ q ∈ sent, reply q = reply' q) : answer.Replies timeout reply' asked sent :=
  fun before q after hsent => (h before q after hsent).trans (heq q (by simp [hsent]))

end Respondent.Replies

namespace Heeds

variable {reply reply' : Probe → Except Fault Reply} {found : Except Fault Profile}

theorem mem (h : Heeds fallback reply qs p sent found) (hq : q ∈ sent) : q ∈ qs :=
  mem_of_mem_survey (h.due.subset hq)

theorem congr (h : Heeds fallback reply qs p sent found) (heq : ∀ q ∈ qs, reply q = reply' q) :
    Heeds fallback reply' qs p sent found := by
  have hsurvey : survey fallback (fun q => (reply q).toOption) qs p =
      survey fallback (fun q => (reply' q).toOption) qs p :=
    survey_congr fun q hq => congrArg Except.toOption (heq q hq)
  refine ⟨hsurvey ▸ h.due, ?_, ?_, fun p' hp' => hsurvey ▸ h.finds p' hp'⟩
  · intro q hq f hf
    exact h.breaks q hq f ((heq q (h.mem hq)).trans hf)
  · intro f hf
    obtain ⟨q, hlast, hq, hkind⟩ := h.broken f hf
    exact ⟨q, hlast, (heq q (h.mem (List.mem_of_getLast? hlast))) ▸ hq, hkind⟩

/-- Nothing is sent, where there is nothing to be sent. -/
theorem nil : Heeds fallback reply [] p [] (.ok p) where
  due := List.prefix_rfl
  breaks _ hq := absurd hq List.not_mem_nil
  broken _ hf := nomatch hf
  finds _ hp' := by cases hp'; rfl

/-- A probe is not sent, where it is not worth it. -/
theorem skip (hq : q.wanted p = false) (h : Heeds fallback reply qs p sent found) :
    Heeds fallback reply (q :: qs) p sent found := by
  have hsurvey : survey fallback (fun q => (reply q).toOption) (q :: qs) p =
      survey fallback (fun q => (reply q).toOption) qs p := survey_of_not_wanted hq
  exact ⟨hsurvey ▸ h.due, h.breaks, h.broken, hsurvey ▸ h.finds⟩

/-- A probe is answered with a fault that ends the detection. -/
theorem stop (hq : q.wanted p = true) (hf : reply q = .error f) (hkind : f.kind ≠ .commandTimeout) :
    Heeds fallback reply (q :: qs) p [q] (.error f) where
  due := by
    rw [survey_of_wanted hq]
    exact List.prefix_append [q] _
  breaks q' hq' f' hf' _ := by
    obtain rfl := List.mem_singleton.mp hq'
    rw [Except.error.inj (hf.symm.trans hf')]
  broken f' hf' := by
    cases hf'
    exact ⟨q, rfl, hf, hkind⟩
  finds _ hp' := nomatch hp'

/-- A probe is sent, and what it finds out goes on record. -/
theorem heed (hq : q.wanted p = true) (hreply : probeAnswer (reply q) = .ok (reply q).toOption)
    (h : Heeds fallback reply qs (q.record fallback p (reply q).toOption) sent found) :
    Heeds fallback reply (q :: qs) p (q :: sent) found := by
  -- The probe itself breaks nothing off.
  have hfine : ∀ f, reply q = .error f → f.kind = .commandTimeout := by
    intro f hf
    rw [hf] at hreply
    cases f with
    | commandTimeout => rfl
    | _ => cases hreply
  constructor
  case due =>
    rw [survey_of_wanted hq]
    exact (List.prefix_cons_inj q).mpr h.due
  case breaks =>
    intro q' hq' f hf hkind
    rcases List.mem_cons.mp hq' with rfl | hq'
    · exact absurd (hfine f hf) hkind
    · exact h.breaks q' hq' f hf hkind
  case broken =>
    intro f hf
    obtain ⟨q', hlast, hq', hkind⟩ := h.broken f hf
    exact ⟨q', by rw [List.getLast?_cons, hlast]; rfl, hq', hkind⟩
  case finds =>
    intro p' hp'
    rw [survey_of_wanted hq, ← h.finds p' hp']

end Heeds

/-- Every probe is answered by a fault that ends the detection, or by one reply or none. -/
theorem probeAnswer_eq (a : Except Fault Reply) :
    (∃ f, a = .error f ∧ f.kind ≠ .commandTimeout ∧ probeAnswer a = .error f) ∨
      probeAnswer a = .ok a.toOption := by
  cases ha : probeAnswer a with
  | error f =>
    obtain ⟨rfl, hkind⟩ := kind_of_probeAnswer ha
    exact .inl ⟨f, rfl, hkind, rfl⟩
  | ok r =>
    refine .inr (congrArg Except.ok ?_)
    cases a with
    | ok r' => exact (Except.ok.inj ha).symm
    | error f =>
      cases f with
      | commandTimeout => exact (Except.ok.inj ha).symm
      | _ => cases ha

/-- **Every detection makes something of the replies to its probes**, whoever answers: each of them
is sent at most once, so one reply to each is all that matters. -/
theorem exists_heeds (answer : Respondent) (asked : List Query) (fallback : String)
    (timeout : Duration) (p : Profile) (hqs : qs.Nodup) :
    ∃ reply sent,
      ((detectWith fallback timeout qs p).play answer asked).1 = sent.map (Probe.query timeout) ∧
        answer.Replies timeout reply asked sent ∧
        Heeds fallback reply qs p sent
          ((detectWith fallback timeout qs p).play answer asked).2 := by
  induction qs generalizing p asked with
  | nil => exact ⟨fun _ => .ok ⟨"", "", 0⟩, [], rfl, .nil, .nil⟩
  | cons q qs ih =>
    obtain ⟨hnew, hqs⟩ := List.nodup_cons.mp hqs
    by_cases hq : q.wanted p = true
    · rw [play_detectWith_cons hq]
      rcases probeAnswer_eq (answer asked (q.query timeout)) with ⟨f, ha, hkind, hf⟩ | hok
      · rw [hf]
        exact ⟨fun _ => .error f, [q], rfl, .cons ha .nil, .stop hq rfl hkind⟩
      · rw [hok]
        obtain ⟨reply, sent, hsent, hreplies, hheeds⟩ := ih (asked ++ [q.query timeout])
          (q.record fallback p (answer asked (q.query timeout)).toOption) hqs
        -- The later replies stay, as no later probe is the same.
        have hself : Function.update reply q (answer asked (q.query timeout)) q =
            answer asked (q.query timeout) := Function.update_self ..
        have hothers : ∀ q' ∈ qs, reply q' =
            Function.update reply q (answer asked (q.query timeout)) q' :=
          fun q' hq' => (Function.update_of_ne (ne_of_mem_of_not_mem hq' hnew) ..).symm
        refine ⟨Function.update reply q (answer asked (q.query timeout)), q :: sent,
          congrArg (q.query timeout :: ·) hsent, ?_, ?_⟩
        · exact .cons hself.symm (hreplies.congr fun q' hq' => hothers q' (hheeds.mem hq'))
        · refine .heed hq (by rw [hself]; exact hok) ?_
          rw [hself]
          exact hheeds.congr hothers
    · rw [detectWith, if_neg hq]
      obtain ⟨reply, sent, hsent, hreplies, hheeds⟩ := ih asked p hqs
      exact ⟨reply, sent, hsent, hreplies, .skip (Bool.eq_false_iff.mpr hq) hheeds⟩

/-! ## The probes in their order -/

/-- **The probes of a login.**  Nothing more is asked of the superuser, and a tool is tried only
where it was found. -/
def Probe.schedule (fallback : String) (reply : Probe → Option Reply) : List Probe :=
  if Probe.userOf fallback (reply .user) = "root" then [.user]
  else
    [.user, .groups, .findSudo, .findDoas, .findSu] ++
      (if Probe.succeeded (reply .findSudo) then [.trySudo] else []) ++
      (if Probe.succeeded (reply .findDoas) then [.tryDoas] else [])

/-- The probes that are about tools. -/
def Probe.ofTools : List Probe := [.findSudo, .findDoas, .findSu, .trySudo, .tryDoas]

/-- The probe that looks for the tool of a method. -/
def Method.finder : Method → Probe
  | .sudo | .sudoPassword => .findSudo
  | .doas | .doasPassword => .findDoas
  | .su => .findSu

variable {reply : Probe → Option Reply}

/-- The groups are all that `groups` finds out. -/
theorem exists_groups_of_record (fallback : String) (p : Profile) (a : Option Reply) :
    ∃ groups, Probe.groups.record fallback p a = { p with groups := groups } := by
  simp only [Probe.record]
  split
  · exact ⟨p.groups, rfl⟩
  · exact ⟨_, rfl⟩

/-- Nothing but the name is found out about the superuser. -/
theorem survey_order_of_root (hroot : Probe.userOf fallback (reply .user) = "root") :
    survey fallback reply Probe.order (.ofUser "") = ([.user], .ofUser "root") := by
  have hfirst : Probe.user.wanted (.ofUser "") = true := by decide
  have hrest : ∀ qs, survey fallback reply qs (.ofUser "root") = ([], .ofUser "root") := by
    intro qs
    induction qs with
    | nil => rfl
    | cons q qs ih =>
      have hq : q.wanted (.ofUser "root") = false := by cases q <;> rfl
      exact (survey_of_not_wanted hq).trans ih
  rw [Probe.order, survey_of_wanted hfirst, Probe.record, hroot, hrest]

/-- What is found out about the tools by somebody who is not the superuser, and of whom no tool is
known yet. -/
theorem survey_tools (hroot : p.isRoot = false) (hsudo : p.sudoFree = false)
    (hdoas : p.doasFree = false) :
    survey fallback reply Probe.ofTools p =
      ([.findSudo, .findDoas, .findSu] ++
          (if Probe.succeeded (reply .findSudo) then [.trySudo] else []) ++
          (if Probe.succeeded (reply .findDoas) then [.tryDoas] else []),
        { p with
          hasSudo := Probe.succeeded (reply .findSudo)
          hasDoas := Probe.succeeded (reply .findDoas)
          hasSu := Probe.succeeded (reply .findSu)
          sudoFree := Probe.succeeded (reply .findSudo) && Probe.succeeded (reply .trySudo)
          sudoDenied := if Probe.succeeded (reply .findSudo) then
            !Probe.succeeded (reply .trySudo) && Probe.refused (reply .trySudo) else p.sudoDenied
          doasFree := Probe.succeeded (reply .findDoas) && Probe.succeeded (reply .tryDoas)
          doasDenied := if Probe.succeeded (reply .findDoas) then
            !Probe.succeeded (reply .tryDoas) && Probe.refused (reply .tryDoas)
            else p.doasDenied }) := by
  -- Whether a tool is tried is known once it was looked for.
  cases hfoundSudo : Probe.succeeded (reply .findSudo) <;>
    cases hfoundDoas : Probe.succeeded (reply .findDoas) <;>
    simp [Probe.ofTools, survey, Probe.wanted, Probe.record, hroot, hsudo, hdoas, hfoundSudo,
      hfoundDoas]

/-- Before the tools are looked for, the user and the groups are. -/
theorem survey_order_of_ne_root (hroot : Probe.userOf fallback (reply .user) ≠ "root") :
    ∃ groups, survey fallback reply Probe.order (.ofUser "") =
      (.user :: .groups :: (survey fallback reply Probe.ofTools
          { Profile.ofUser (Probe.userOf fallback (reply .user)) with groups := groups }).1,
        (survey fallback reply Probe.ofTools
          { Profile.ofUser (Probe.userOf fallback (reply .user)) with groups := groups }).2) := by
  have hfirst : Probe.user.wanted (.ofUser "") = true := by decide
  have hnext : Probe.groups.wanted (.ofUser (Probe.userOf fallback (reply .user))) = true := by
    simp [Probe.wanted, Profile.ofUser, hroot]
  obtain ⟨groups, hgroups⟩ := exists_groups_of_record fallback
    (.ofUser (Probe.userOf fallback (reply .user))) (reply .groups)
  refine ⟨groups, ?_⟩
  rw [Probe.order, survey_of_wanted hfirst, Probe.record, survey_of_wanted hnext, hgroups,
    Probe.ofTools]

/-- **The probes that are sent** where no fault ends the detection. -/
theorem survey_order_fst (fallback : String) (reply : Probe → Option Reply) :
    (survey fallback reply Probe.order (.ofUser "")).1 = Probe.schedule fallback reply := by
  rw [Probe.schedule]
  split
  · next hroot => rw [survey_order_of_root hroot]
  · next hroot =>
    obtain ⟨groups, hsurvey⟩ := survey_order_of_ne_root hroot
    rw [hsurvey, survey_tools (beq_false_of_ne hroot) rfl rfl]
    rfl

/-- **What is found out** where no fault ends the detection: a tool asks for a password or it does
not, and a method is offered only where its tool was found. -/
theorem survey_order_snd (fallback : String) (reply : Probe → Option Reply) :
    (survey fallback reply Probe.order (.ofUser "")).2.user =
        Probe.userOf fallback (reply .user) ∧
      ∀ m, (survey fallback reply Probe.order (.ofUser "")).2.offers m = true →
        m.finder ∈ Probe.schedule fallback reply ∧
          Probe.succeeded (reply m.finder) = true := by
  by_cases hroot : Probe.userOf fallback (reply .user) = "root"
  · rw [survey_order_of_root hroot, hroot]
    exact ⟨rfl, fun m hm => by cases m <;> cases hm⟩
  · obtain ⟨groups, hsurvey⟩ := survey_order_of_ne_root hroot
    rw [hsurvey, survey_tools (beq_false_of_ne hroot) rfl rfl, Probe.schedule, if_neg hroot]
    refine ⟨rfl, fun m hm => ?_⟩
    cases m <;> simp_all [Profile.offers, Method.finder]

/-- A tool that asks for no password is not one that asks for one. -/
theorem not_offers_both (p : Profile) :
    ¬ (p.offers .sudo = true ∧ p.offers .sudoPassword = true) ∧
      ¬ (p.offers .doas = true ∧ p.offers .doasPassword = true) := by
  simp only [Profile.offers, Bool.and_eq_true, Bool.not_eq_true']
  constructor
  · rintro ⟨hfree, ⟨-, hasks⟩, -⟩
    exact absurd hfree (Bool.eq_false_iff.mp hasks)
  · rintro ⟨hfree, ⟨-, hasks⟩, -⟩
    exact absurd hfree (Bool.eq_false_iff.mp hasks)

/-- A host with `sudo` for those who give their password, that is late to look for `doas`. -/
def lateForDoas : Respondent := fun _ q =>
  match q with
  | .run (.probe command limit) =>
    if command = "whoami" then .ok ⟨"deploy\n", "", 0⟩
    else if command = "command -v sudo" then .ok ⟨"/usr/bin/sudo\n", "", 0⟩
    else if command = "command -v doas" then .error (.commandTimeout "db-01" limit)
    else .ok ⟨"", "a password is required", 1⟩
  | .run _ => .ok ⟨"", "", 1⟩
  | .prompt _ => none
  | .fetch _ => none
  | .store .. => ()
  | .erase _ => ()
  | .keep _ => ()

end RemoteShell.Elevation
