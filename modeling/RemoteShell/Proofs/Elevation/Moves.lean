import RemoteShell.Proofs.Elevation.Marks
import RemoteShell.Proofs.Elevation.Trust

/-!
# One move of a call

What a call may do when it goes on, by what it has just been told and by the profile that it found
and the one that it leaves.  A profile that is there stays, and so does what has been decided about
a method, but for a password that its own tool rejects.  A password is asked for only where nothing
is decided, and what the operator says is checked at once; a detection that does not come to a
profile goes on with the next probe, or has heard of a fault.

The history of a profile is a sequence of such moves, and every call keeps it one: this is a
contract of the dialogue, said once for all orders of calls.

## Main definitions

* `Hearing`: what a call has been told when it goes on
* `Decided`: a method is marked failed, or its password is known
* `BreaksOff`, `Deed.Rejects`: a check says nothing, and a tool rejects a password
* `Fair`: what a call may do
* `Moves`: a profile and its history come about by such moves

## Main results

* `Moves.fair_of_turn`, `Moves.fair_of_answer`: the latest move of a history was a fair one
* `Moves.fulfils_ascend`: every call makes fair moves only
-/

namespace RemoteShell.Elevation

variable {k : Login} {l m : Method} {s : String} {password : Option String} {p : Profile}
  {u v w : Option Profile} {h : List Note} {x : Note} {d : Deed} {caller : CallId}
  {command : String} {timeout limit : Duration}

/-! ## What a call is told, and what it makes of it -/

/-- **What a call has been told** when it goes on: nothing when its turn has come, else the answer
to its question. -/
abbrev Hearing : Type := Option (Sigma Query.Answer)

/-- What is noted of it. -/
def Hearing.deeds (told : Hearing) : List Deed := told.toList.map fun x => .hears x.1 x.2

/-- **A plain question** has no part in finding out about a login or about a password. -/
def Query.Plain : Query → Prop
  | .run (.plain ..) | .run (.elevated ..) | .fetch _ | .store .. | .erase _ => True
  | .run (.probe ..) | .run (.check ..) | .prompt _ | .keep _ => False

theorem Query.Plain.outward {q : Query} (hq : q.Plain) : q.Outward := by
  cases q with
  | keep p => exact hq
  | _ => exact trivial

/-- **A method is decided on**: it is marked failed, or its password is known. -/
def Decided (m : Method) (v : Option Profile) : Prop :=
  ∃ p, v = some p ∧ (m ∈ p.failed ∨ (p.passwords.get? m).isSome)

/-- **A check breaks off** in an error other than a time limit: in the fault of its command, or in a
crash of the call over output that cannot be cleaned. -/
def BreaksOff (m : Method) : Except Fault Reply → Prop
  | .error f => f.kind ≠ .commandTimeout
  | .ok r => r.exitCode = 0 ∧ cleanedReply? m r = none

/-- **A tool rejects the password** of a method, with which it was to run the command. -/
def Deed.Rejects (d : Deed) (m : Method) : Prop :=
  ∃ s command timeout raw r,
    d = .hears (.run (.elevated m (some s) command timeout)) (.ok raw) ∧
      cleanedReply? m raw = some r ∧ r.exitCode ≠ 0 ∧ passwordRejected m r = true

/-- The operator gives a password for a method. -/
def Hearing.Gives (told : Hearing) (k : Login) (m : Method) (s : String) : Prop :=
  s ≠ "" ∧ ∃ message user, told = some ⟨.prompt message, some s⟩ ∧ message = promptText k m user

/-- The passwords of the methods that passed their check are known. -/
def Profile.Stocked (p : Profile) : Prop :=
  ∀ m ∈ p.verified, m.needsPassword = true → (p.passwords.get? m).isSome

/-- **What becomes of a profile** by what a call has been told. -/
structure Becomes (told : Hearing) (v w : Option Profile) : Prop where
  known : v.isSome → w.isSome
  stocked : ∀ p, w = some p → p.Stocked
  decided : ∀ m, Decided m v → Decided m w ∨ ∃ d ∈ told.deeds, d.Rejects m
  judged : ∀ m s limit a, told = some ⟨.run (.check m (some s) limit), a⟩ →
    Decided m w ∨ BreaksOff m a

/-- **What a call may do** when it has been told something: it finds one profile, leaves another one
and comes to a deed. -/
structure Fair (k : Login) (told : Hearing) (v w : Option Profile) (d : Deed) : Prop
    extends Becomes told v w where
  comes : (∃ q, d = .asks q) ∨ ∃ r, d = .ends r
  checks : ∀ m s, told.Gives k m s → ∃ limit, d = .asks (.run (.check m (some s) limit))
  prompts : ∀ m user, d = .asks (.prompt (promptText k m user)) → ¬ Decided m w
  detects : ∀ command limit a, told = some ⟨.run (.probe command limit), a⟩ → w = none →
    (∃ command limit, d = .asks (.run (.probe command limit))) ∨
      ∃ f, a = .error f ∧ f.kind ≠ .commandTimeout
  probes : ∀ command limit, d = .asks (.run (.probe command limit)) → w = none
  starts : ∀ limit, d = .asks (.run (.probe Probe.user.command limit)) → told = none

/-- **A profile and its history come about by fair moves**: calls whose turn has come, and calls
that go on after a question of theirs. -/
inductive Moves (k : Login) : Option Profile → List Note → Prop
  | start : Moves k none []
  | turn {v w : Option Profile} {h : List Note} {d : Deed} (caller : CallId) (command : String)
      (timeout : Duration) (before : Moves k v h) (fair : Fair k none v w d) :
      Moves k w (.mk caller k command timeout d :: .mk caller k command timeout (.leaves w) :: h)
  | answer {v w : Option Profile} {h : List Note} {d : Deed} {caller : CallId} {command : String}
      {timeout : Duration} {q : Query} {a : q.Answer}
      (before : Moves k v (.mk caller k command timeout (.asks q) :: h))
      (fair : Fair k (some ⟨q, a⟩) v w d) :
      Moves k w (.mk caller k command timeout d :: .mk caller k command timeout (.leaves w) ::
        .mk caller k command timeout (.hears q a) :: .mk caller k command timeout (.asks q) :: h)

/-! ## What is learned -/

namespace Profile.Stocked

theorem forgetPassword (hp : p.Stocked) (m : Method) : (p.forgetPassword m).Stocked := by
  intro l hl hneeds
  obtain ⟨hl, hlm⟩ := List.mem_filter.mp hl
  have hsame := Assoc.get?_erase_of_ne p.passwords (of_decide_eq_true hlm)
  exact hsame.symm ▸ hp l hl hneeds

theorem trust (hp : p.Stocked) (hasked : password.isSome = m.needsPassword) :
    (p.trust m password).Stocked := by
  intro l hl hneeds
  cases password with
  | none =>
    rcases List.mem_insert_iff.mp hl with rfl | hl
    · rw [← hasked] at hneeds
      cases hneeds
    · exact hp l hl hneeds
  | some s =>
    by_cases hlm : l = m
    · subst hlm
      exact Option.isSome_iff_exists.mpr ⟨s, Assoc.get?_put_self ..⟩
    · have hsame := Assoc.get?_put_of_ne p.passwords s hlm
      exact hsame.symm ▸ hp l ((List.mem_insert_iff.mp hl).resolve_left hlm) hneeds

end Profile.Stocked

namespace Decided

/-- A failed method is decided on, and nothing else is undone. -/
theorem markFailed (m : Method) (h : l = m ∨ Decided l (some p)) :
    Decided l (some (p.markFailed m)) := by
  refine ⟨_, rfl, ?_⟩
  by_cases hlm : l = m
  · exact .inl (List.mem_insert_iff.mpr (.inl hlm))
  · obtain ⟨q, hq, hl⟩ := h.resolve_left hlm
    obtain rfl := Option.some.inj hq
    refine hl.imp (fun hl => List.mem_insert_iff.mpr (.inr hl)) fun hl => ?_
    exact (Assoc.get?_erase_of_ne p.passwords hlm).symm ▸ hl

theorem forgetPassword (hlm : l ≠ m) (h : Decided l (some p)) :
    Decided l (some (p.forgetPassword m)) := by
  obtain ⟨q, hq, hl⟩ := h
  obtain rfl := Option.some.inj hq
  exact ⟨_, rfl, hl.imp_right fun hl => (Assoc.get?_erase_of_ne p.passwords hlm).symm ▸ hl⟩

/-- A password that passed its check is known, and nothing else is undone. -/
theorem trust (h : Decided l (some p)) : Decided l (some (p.trust m password)) := by
  obtain ⟨q, hq, hl⟩ := h
  obtain rfl := Option.some.inj hq
  refine ⟨_, rfl, ?_⟩
  cases password with
  | none => exact hl
  | some s =>
    refine hl.imp_right fun hl => ?_
    by_cases hlm : l = m
    · subst hlm
      exact Option.isSome_iff_exists.mpr ⟨s, Assoc.get?_put_self ..⟩
    · exact (Assoc.get?_put_of_ne p.passwords s hlm).symm ▸ hl

theorem trusted (p : Profile) (m : Method) (s : String) :
    Decided m (some (p.trust m (some s))) :=
  ⟨_, rfl, .inr (Option.isSome_iff_exists.mpr ⟨s, Assoc.get?_put_self ..⟩)⟩

end Decided

/-! ## The latest move -/

namespace Moves

theorem stocked (hm : Moves k v h) : ∀ p, v = some p → p.Stocked := by
  cases hm with
  | start => exact fun p hp => absurd hp.symm (Option.some_ne_none p)
  | turn _ _ _ _ fair => exact fair.stocked
  | answer _ fair => exact fair.stocked

theorem keyed (hm : Moves k v h) : ∀ x ∈ h, x.key = k := by
  induction hm with
  | start => exact List.forall_mem_nil _
  | turn _ _ _ _ _ ih => exact List.forall_mem_cons.mpr ⟨rfl, List.forall_mem_cons.mpr ⟨rfl, ih⟩⟩
  | answer _ _ ih =>
    exact List.forall_mem_cons.mpr ⟨rfl, List.forall_mem_cons.mpr ⟨rfl,
      List.forall_mem_cons.mpr ⟨rfl, ih⟩⟩⟩

/-- A history has one profile. -/
theorem eq (hv : Moves k v h) (hw : Moves k w h) : v = w := by
  cases hv <;> cases hw <;> rfl

/-- The latest note is a question or the end of a call, and no answer. -/
theorem not_hears {q : Query} {a : q.Answer} :
    ¬ Moves k v (.mk caller k command timeout (.hears q a) :: h) := by
  intro hm
  cases hm with
  | turn _ _ _ _ fair => obtain ⟨_, ⟨⟩⟩ | ⟨_, ⟨⟩⟩ := fair.comes
  | answer _ fair => obtain ⟨_, ⟨⟩⟩ | ⟨_, ⟨⟩⟩ := fair.comes

/-- **A turn has come**: the latest move was a fair one. -/
theorem fair_of_turn (hv : Moves k v h)
    (hw : Moves k w (.mk caller k command timeout d :: .mk caller k command timeout (.leaves u) ::
      h)) : Fair k none v w d := by
  cases hw with
  | turn _ _ _ before fair =>
    obtain rfl := hv.eq before
    exact fair
  | answer _ _ => exact absurd hv not_hears

/-- **An answer was heard**: the latest move was a fair one. -/
theorem fair_of_answer {q : Query} {a : q.Answer} (hv : Moves k v h)
    (hw : Moves k w (.mk caller k command timeout d :: .mk caller k command timeout (.leaves u) ::
      .mk caller k command timeout (.hears q a) :: h)) : Fair k (some ⟨q, a⟩) v w d := by
  cases hw with
  | turn _ _ _ before _ => exact absurd before not_hears
  | answer before fair =>
    obtain rfl := hv.eq before
    exact fair

end Moves

/-! ## Between two questions -/

/-- **A call is about to go on**: what it has been told is the latest note. -/
inductive Ready (k : Login) (mark : Deed → Note) : Hearing → Option Profile → List Note → Prop
  | turn {v : Option Profile} {h : List Note} (before : Moves k v h) : Ready k mark none v h
  | answer {v : Option Profile} {h : List Note} {q : Query} {a : q.Answer}
      (before : Moves k v (mark (.asks q) :: h)) :
      Ready k mark (some ⟨q, a⟩) v (mark (.hears q a) :: mark (.asks q) :: h)

/-- **A call is about to ask or to end**, with a profile that has become of what it has been told.
It may owe a check of the password that the operator has given for a method. -/
def Poised (k : Login) (mark : Deed → Note) (due : Option (Method × String)) (w : Option Profile)
    (h : List Note) : Prop :=
  ∃ told v, Ready k mark told v h ∧ Becomes told v w ∧
    ∀ m s, told.Gives k m s → due = some (m, s)

section Steps

variable {told : Hearing} {due : Option (Method × String)} {α : Type}
  {post : α → Option Profile → List Note → Prop} {q : Query} {next : q.Answer → Talk α}

/-- A call that ends does nothing else. -/
theorem Fair.ends (hb : Becomes told v w) (r : Climb.Result) (hgives : ∀ m s, ¬ told.Gives k m s)
    (hdetects : ∀ sent limit a, told = some ⟨.run (.probe sent limit), a⟩ → w = none →
      ∃ f, a = .error f ∧ f.kind ≠ .commandTimeout) : Fair k told v w (.ends r) where
  toBecomes := hb
  comes := .inr ⟨r, rfl⟩
  checks m s hms := absurd hms (hgives m s)
  prompts := by rintro m user ⟨⟩
  detects sent limit a ha hw := .inr (hdetects sent limit a ha hw)
  probes := by rintro sent limit ⟨⟩
  starts := by rintro limit ⟨⟩

/-- The call makes its move. -/
theorem Ready.moves (hr : Ready k (.mk caller k command timeout) told v h)
    (hf : Fair k told v w d) :
    Moves k w (.mk caller k command timeout d :: .mk caller k command timeout (.leaves w) ::
      h) := by
  cases hr with
  | turn before => exact .turn caller command timeout before hf
  | answer before => exact .answer before hf

/-- The call asks, and is told the answer. -/
theorem Ready.ask (hr : Ready k (.mk caller k command timeout) told v h) (hq : q.Outward)
    (hf : Fair k told v w (.asks q))
    (hnext : ∀ a, Ready k (.mk caller k command timeout) (some ⟨q, a⟩) w
        (heard (.mk caller k command timeout) q a w h) →
      Talk.Keeps (Moves k) (.mk caller k command timeout) post (next a) w
        (heard (.mk caller k command timeout) q a w h)) :
    Talk.Keeps (Moves k) (.mk caller k command timeout) post (.ask q next) w h :=
  (Talk.keeps_ask hq).mpr ⟨hr.moves hf, fun a => hnext a (.answer (hr.moves hf))⟩

/-- With a profile a call asks what it likes, but for probes. -/
theorem Poised.ask (hp : Poised k (.mk caller k command timeout) due (some p) h) (hq : q.Outward)
    (hprobe : ∀ command limit, q ≠ .run (.probe command limit))
    (hdue : ∀ m s, due = some (m, s) → ∃ limit, q = .run (.check m (some s) limit))
    (hprompt : ∀ m user, q = .prompt (promptText k m user) → ¬ Decided m (some p))
    (hnext : ∀ a, p.Stocked → Ready k (.mk caller k command timeout) (some ⟨q, a⟩) (some p)
        (heard (.mk caller k command timeout) q a (some p) h) →
      Talk.Keeps (Moves k) (.mk caller k command timeout) post (next a) (some p)
        (heard (.mk caller k command timeout) q a (some p) h)) :
    Talk.Keeps (Moves k) (.mk caller k command timeout) post (.ask q next) (some p) h := by
  obtain ⟨told, v, hr, hb, hgives⟩ := hp
  have hf : Fair k told v (some p) (.asks q) := by
    refine { toBecomes := hb, comes := .inl ⟨q, rfl⟩, checks := ?_, prompts := ?_, detects := ?_,
             probes := ?_, starts := ?_ }
    · intro m s hms
      obtain ⟨limit, rfl⟩ := hdue m s (hgives m s hms)
      exact ⟨limit, rfl⟩
    · exact fun m user hd => hprompt m user (Deed.asks.inj hd)
    · exact fun _ _ _ _ hw => absurd hw (Option.some_ne_none p)
    · exact fun command limit hd => absurd (Deed.asks.inj hd) (hprobe command limit)
    · exact fun limit hd => absurd (Deed.asks.inj hd) (hprobe _ limit)
  exact hr.ask hq hf fun a => hnext a (hb.stocked p rfl)

/-- With a profile a call may end. -/
theorem Poised.ends (hp : Poised k (.mk caller k command timeout) none (some p) h)
    (r : Climb.Result) :
    Moves k (some p) (.mk caller k command timeout (.ends r) ::
      .mk caller k command timeout (.leaves (some p)) :: h) := by
  obtain ⟨told, v, hr, hb, hgives⟩ := hp
  refine hr.moves (.ends hb r (fun m s hms => ?_) fun _ _ _ _ hw => ?_)
  · exact absurd (hgives m s hms) (Option.some_ne_none _).symm
  · exact absurd hw (Option.some_ne_none p)

/-- A call that has been told something keeps the profile that becomes of it. -/
theorem Ready.poised (hr : Ready k (.mk caller k command timeout) told v h)
    (hb : Becomes told v w) (hgives : ∀ m s, told.Gives k m s → due = some (m, s)) :
    Poised k (.mk caller k command timeout) due w h :=
  ⟨told, v, hr, hb, hgives⟩

/-- What has been told changes nothing, unless it is the answer to a check. -/
theorem Becomes.refl (hp : p.Stocked)
    (hcheck : ∀ m s limit a, told ≠ some ⟨.run (.check m (some s) limit), a⟩) :
    Becomes told (some p) (some p) where
  known := id
  stocked _ hq := Option.some.inj hq ▸ hp
  decided _ hm := .inl hm
  judged m s limit a ha := absurd ha (hcheck m s limit a)

/-- A plain question is asked, and answered. -/
theorem Poised.askPlain (hv : Poised k (.mk caller k command timeout) none (some p) h)
    (hq : q.Plain)
    (hnext : ∀ a, p.Stocked → Ready k (.mk caller k command timeout) (some ⟨q, a⟩) (some p)
        (heard (.mk caller k command timeout) q a (some p) h) →
      Talk.Keeps (Moves k) (.mk caller k command timeout) post (next a) (some p)
        (heard (.mk caller k command timeout) q a (some p) h)) :
    Talk.Keeps (Moves k) (.mk caller k command timeout) post (.ask q next) (some p) h := by
  refine hv.ask hq.outward ?_ (by rintro m s ⟨⟩) ?_ hnext
  · rintro sent limit rfl
    exact hq
  · rintro m user rfl
    exact hq.elim

/-- The answer to a plain question leaves the profile as it is. -/
theorem Ready.settled {a : q.Answer}
    (hr : Ready k (.mk caller k command timeout) (some ⟨q, a⟩) (some p) h) (hp : p.Stocked)
    (hq : q.Plain) : Poised k (.mk caller k command timeout) none (some p) h := by
  refine hr.poised (.refl hp ?_) ?_
  · rintro m s limit b ⟨⟩
    exact hq
  · rintro m s ⟨-, message, user, ⟨⟩, -⟩
    exact hq.elim

end Steps

/-! ## Detection -/

/-- Nothing but a probe has been answered. -/
def Hearing.OfProbe (told : Hearing) : Prop :=
  ∀ q a, told = some ⟨q, a⟩ → ∃ command limit, q = .run (.probe command limit)

/-- Probes say nothing about passwords. -/
theorem Hearing.OfProbe.becomes {told : Hearing} (ht : told.OfProbe)
    (hw : ∀ p, w = some p → p.Stocked) :
    Becomes told none w ∧ ∀ m s, ¬ told.Gives k m s := by
  refine ⟨⟨by rintro ⟨⟩, hw, ?_, ?_⟩, ?_⟩
  · rintro m ⟨p, ⟨⟩, -⟩
  · intro m s limit a ha
    obtain ⟨command, limit, hq⟩ := ht _ _ ha
    cases hq
  · rintro m s ⟨-, message, user, ha, -⟩
    obtain ⟨command, limit, hq⟩ := ht _ _ ha
    cases hq

/-- What is known at the end of a detection: a profile without passwords, or the fault of a
probe. -/
def Detects (k : Login) (mark : Deed → Note) (r : Except Fault Profile) (v : Option Profile)
    (h : List Note) : Prop :=
  v = none ∧ ∃ told : Hearing, Ready k mark told none h ∧ told.OfProbe ∧
    match r with
    | .ok p => p.Stocked
    | .error f => ∃ command limit, told = some ⟨.run (.probe command limit), .error f⟩ ∧
        f.kind ≠ .commandTimeout

/-- A fault that ends a detection is no time limit. -/
theorem kind_of_probeAnswer {a : Except Fault Reply} {f : Fault} (h : probeAnswer a = .error f) :
    a = .error f ∧ f.kind ≠ .commandTimeout := by
  obtain rfl := eq_error_of_probeAnswer h
  refine ⟨rfl, ?_⟩
  cases f with
  | commandTimeout => cases h
  | _ => rintro ⟨⟩

/-- A probe is sent, and answered. -/
theorem Ready.probe {told : Hearing} {α : Type} {post : α → Option Profile → List Note → Prop}
    {sent : String} {next : Except Fault Reply → Talk α}
    (hr : Ready k (.mk caller k command timeout) told none h) (ht : told.OfProbe)
    (hsent : sent = Probe.user.command → told = none)
    (hnext : ∀ a, Ready k (.mk caller k command timeout) (some ⟨.run (.probe sent limit), a⟩) none
        (heard (.mk caller k command timeout) (.run (.probe sent limit)) a none h) →
      Talk.Keeps (Moves k) (.mk caller k command timeout) post (next a) none
        (heard (.mk caller k command timeout) (.run (.probe sent limit)) a none h)) :
    Talk.Keeps (Moves k) (.mk caller k command timeout) post
      (.ask (.run (.probe sent limit)) next) none h := by
  obtain ⟨hb, hgives⟩ := ht.becomes (w := none) (by rintro p ⟨⟩)
  refine hr.ask trivial { toBecomes := hb, comes := .inl ⟨_, rfl⟩, checks := ?_, prompts := ?_,
                          detects := ?_, probes := ?_, starts := ?_ } hnext
  · exact fun m s hms => absurd hms (hgives m s)
  · rintro m user ⟨⟩
  · exact fun _ _ _ _ _ => .inl ⟨_, _, rfl⟩
  · exact fun _ _ _ => rfl
  · rintro limit' hd
    cases hd
    exact hsent rfl

theorem blank_record (q : Probe) (fallback : String) (hp : p.Blank) (r : Option Reply) :
    (q.record fallback p r).Blank := by
  by_cases hq : q = .user
  · subst hq
    exact ⟨rfl, rfl⟩
  · exact (record_of_ne hq fallback p r).2 hp

theorem Hearing.OfProbe.probe {sent : String} (a : Except Fault Reply) :
    Hearing.OfProbe (some ⟨.run (.probe sent limit), a⟩) := by
  intro q b hb
  cases hb
  exact ⟨sent, limit, rfl⟩

/-- The fault of a probe ends the detection. -/
theorem Detects.fault {sent : String} {a : Except Fault Reply} {f : Fault} {mark : Deed → Note}
    (hr : Ready k mark (some ⟨.run (.probe sent limit), a⟩) none h)
    (hf : probeAnswer a = .error f) : Detects k mark (.error f) none h := by
  obtain ⟨rfl, hkind⟩ := kind_of_probeAnswer hf
  exact ⟨rfl, _, hr, .probe _, sent, limit, rfl, hkind⟩

theorem moves_detectWith (qs : List Probe) (hqs : .user ∉ qs) {told : Hearing}
    (hr : Ready k (.mk caller k command timeout) told none h) (ht : told.OfProbe)
    (hp : p.Blank) :
    Talk.Keeps (Moves k) (.mk caller k command timeout) (Detects k (.mk caller k command timeout))
      (detectWith k.user limit qs p) none h := by
  induction qs generalizing p h told with
  | nil =>
    refine ⟨rfl, told, hr, ht, fun m hm => ?_⟩
    rw [hp.1] at hm
    exact absurd hm List.not_mem_nil
  | cons q qs ih =>
    obtain ⟨hq, hqs⟩ := not_or.mp (mt List.mem_cons.mpr hqs)
    rw [detectWith]
    split
    · refine hr.probe ht (fun hsent => ?_) fun a hr => ?_
      · exact absurd hsent (quiet_probe (Ne.symm hq) limit)
      · split
        · next f hf => exact .fault hr hf
        · next r _ => exact ih hqs hr (.probe a) (blank_record q k.user hp r)
    · exact ih hqs hr ht hp

theorem moves_detect (hv : Moves k none h) :
    Talk.Keeps (Moves k) (.mk caller k command timeout) (Detects k (.mk caller k command timeout))
      (detect k.user limit) none h := by
  have hwanted : Probe.user.wanted (.ofUser "") = true := rfl
  have hblank : (Profile.ofUser "").Blank := ⟨rfl, rfl⟩
  rw [detect, Probe.order, detectWith, if_pos hwanted]
  refine (Ready.turn hv).probe (by rintro q a ⟨⟩) (fun _ => rfl) fun a hr => ?_
  split
  · next f hf => exact .fault hr hf
  · next r _ => exact moves_detectWith _ (by decide) hr (.probe a) ⟨rfl, rfl⟩

/-! ## The steps for one method -/

/-- What comes with the password of a method, when there is one: the profile is as it was, and
what the operator has just said is still to be checked. -/
def Supplied (k : Login) (mark : Deed → Note) (p : Profile) (m : Method)
    (r : Except Outcome (Option String)) (v : Option Profile) (h : List Note) : Prop :=
  v = some p ∧
    match r with
    | .error _ => Poised k mark none v h
    | .ok password => password.isSome = m.needsPassword ∧
        ∃ due, Poised k mark due v h ∧
          ∀ x, due = some x → m ∉ p.verified ∧ password = some x.2 ∧ x.1 = m

/-- What the operator says is meant for the method that was asked for. -/
theorem Hearing.Gives.said {user said : String}
    (h : Hearing.Gives (some ⟨.prompt (promptText k m user), some said⟩) k l s) :
    s = said ∧ l = m := by
  obtain ⟨-, message, user', hsaid, hmessage⟩ := h
  cases hsaid
  exact ⟨rfl, (eq_of_promptText_eq hmessage).symm⟩

/-- **The password of a method is asked for** where nothing is decided. -/
theorem moves_passwordFor (hv : Poised k (.mk caller k command timeout) none (some p) h)
    (hm : m ∉ p.failed) :
    Talk.Keeps (Moves k) (.mk caller k command timeout)
      (Supplied k (.mk caller k command timeout) p m) (passwordFor k p m) (some p) h := by
  rw [passwordFor]
  split
  · next hneeds =>
    split
    · exact ⟨rfl, hneeds.symm, none, hv, by rintro x ⟨⟩⟩
    · next hunknown =>
      refine hv.askPlain trivial fun a hp hr => ?_
      have hv := hr.settled hp trivial
      cases a with
      | some s => exact ⟨rfl, hneeds.symm, none, hv, by rintro x ⟨⟩⟩
      | none =>
        have hundecided : ∀ l user, Query.prompt (promptText k m p.user) =
            .prompt (promptText k l user) → ¬ Decided l (some p) := by
          rintro l user hprompt ⟨q, hq, hdecided⟩
          obtain rfl := Option.some.inj hq
          obtain rfl := eq_of_promptText_eq (Query.prompt.inj hprompt)
          rcases hdecided with hfailed | hknown
          · exact hm hfailed
          · rw [hunknown] at hknown
            cases hknown
        refine hv.ask trivial (by rintro sent limit ⟨⟩) (by rintro l s ⟨⟩) hundecided
          fun a hp hr => ?_
        have hb : Becomes (some ⟨.prompt (promptText k m p.user), a⟩) (some p) (some p) :=
          .refl hp (by rintro l s limit b ⟨⟩)
        cases a with
        | none =>
          refine ⟨rfl, hr.poised hb ?_⟩
          rintro l s ⟨-, message, user, hsaid, -⟩
          cases hsaid
        | some s =>
          by_cases hs : s = ""
          · subst hs
            refine ⟨rfl, hr.poised hb fun l t hgives => ?_⟩
            obtain ⟨rfl, -⟩ := hgives.said
            exact absurd rfl hgives.1
          · have hverified : m ∉ p.verified := by
              intro hverified
              have hstocked := hp m hverified hneeds
              rw [hunknown] at hstocked
              cases hstocked
            refine ⟨rfl, ?_⟩
            rw [if_neg (mt String.isEmpty_iff.mp hs)]
            refine ⟨hneeds.symm, some (m, s), hr.poised hb ?_, ?_⟩
            · intro l t hgives
              obtain ⟨rfl, rfl⟩ := hgives.said
              rfl
            · rintro x hx
              obtain rfl := Option.some.inj hx
              exact ⟨hverified, rfl, rfl⟩
  · next hneeds => exact ⟨rfl, (Bool.eq_false_iff.mpr hneeds).symm, none, hv, by rintro x ⟨⟩⟩

/-- The answers at which a check breaks off are those that say nothing. -/
theorem breaksOff_of_checkReply {a : Except Fault Reply}
    (h : checkReply m a = none ∨ ∃ f, checkReply m a = some (.error f)) : BreaksOff m a := by
  cases a with
  | error f =>
    cases f with
    | commandTimeout => rcases h with h | ⟨f, h⟩ <;> cases h
    | _ => rintro ⟨⟩
  | ok r =>
    have hsuccess : r.success = true ↔ r.exitCode = 0 := beq_iff_eq
    rw [checkReply] at h
    split at h
    · next hr =>
      refine ⟨hsuccess.mp hr, ?_⟩
      rcases h with h | ⟨f, h⟩
      · exact Option.map_eq_none_iff.mp h
      · obtain ⟨_, _, hf⟩ := Option.map_eq_some_iff.mp h
        cases hf
    · rcases h with h | ⟨f, h⟩ <;> cases h

/-- What a check leaves: a profile that has become of the answer. -/
def Checked (k : Login) (mark : Deed → Note) :
    Verdict → Option Profile → List Note → Prop
  | .trusted p, v, h | .failed p _, v, h => v = some p ∧ Poised k mark none v h
  | .broken _, v, h | .unreadable, v, h => (∃ p, v = some p) ∧ Poised k mark none v h

/-- **The contract of a check**: it checks the password that is due, and decides on the method
unless it breaks off. -/
theorem moves_verify {due : Option (Method × String)}
    (hv : Poised k (.mk caller k command timeout) due (some p) h)
    (hdue : ∀ x, due = some x → password = some x.2 ∧ x.1 = m)
    (hasked : password.isSome = m.needsPassword) :
    Talk.Keeps (Moves k) (.mk caller k command timeout) (Checked k (.mk caller k command timeout))
      (verify limit k p m password) (some p) h := by
  have hsent : ∀ l s, due = some (l, s) → ∃ limit', Query.run (.check m password limit) =
      .run (.check l (some s) limit') := by
    intro l s hls
    obtain ⟨rfl, rfl⟩ := hdue _ hls
    exact ⟨limit, rfl⟩
  rw [verify]
  refine hv.ask trivial (by rintro sent limit' ⟨⟩) hsent (by rintro l user ⟨⟩) fun a hp hr => ?_
  rw [Dialogue.done_bind]
  generalize heard (.mk caller k command timeout) (.run (.check m password limit)) a (some p) h =
    h' at hr ⊢
  have hnothing : ∀ l s, Hearing.Gives (some ⟨.run (.check m password limit), a⟩) k l s →
      none = some (l, s) := by
    rintro l s ⟨-, message, user, hsaid, -⟩
    cases hsaid
  have hbroken (hb : BreaksOff m a) :
      Poised k (.mk caller k command timeout) none (some p) h' := by
    refine hr.poised ⟨id, fun q hq => Option.some.inj hq ▸ hp, fun l hl => .inl hl, ?_⟩ hnothing
    intro l s limit' b hb'
    cases hb'
    exact .inr hb
  cases hcheck : checkReply m a with
  | none => exact ⟨⟨p, rfl⟩, hbroken (breaksOff_of_checkReply (.inl hcheck))⟩
  | some verdict =>
    cases verdict with
    | error f => exact ⟨⟨p, rfl⟩, hbroken (breaksOff_of_checkReply (.inr ⟨f, hcheck⟩))⟩
    | ok outcome =>
      cases outcome with
      | some o =>
        have hfailed : Poised k (.mk caller k command timeout) none (some (p.markFailed m)) h' := by
          refine hr.poised ⟨fun _ => rfl, fun q hq => ?_, fun l hl => ?_, ?_⟩ hnothing
          · exact Option.some.inj hq ▸ (hp.forgetPassword m : (p.markFailed m).Stocked)
          · exact .inl (.markFailed m (.inr hl))
          · intro l s limit' b hb'
            cases hb'
            exact .inl (.markFailed m (.inl rfl))
        change Talk.Keeps _ _ _
          (if m.needsPassword = true then
            .ask (.erase (secretName k m p.user)) fun _ => .done (Verdict.failed (p.markFailed m) o)
          else .done (Verdict.failed (p.markFailed m) o)) (some (p.markFailed m)) _
        split
        · exact hfailed.askPlain trivial fun _ hp hr => ⟨rfl, hr.settled hp trivial⟩
        · exact ⟨rfl, hfailed⟩
      | none =>
        have htrusted :
            Poised k (.mk caller k command timeout) none (some (p.trust m password)) h' := by
          refine hr.poised ⟨fun _ => rfl, fun q hq => ?_, fun l hl => .inl hl.trust, ?_⟩ hnothing
          · exact Option.some.inj hq ▸ hp.trust hasked
          · intro l s limit' b hb'
            cases hb'
            exact .inl (.trusted p m s)
        cases password with
        | none => exact ⟨rfl, htrusted⟩
        | some s =>
          change Talk.Keeps _ _ _
            (.ask (.store (secretName k m p.user) s) fun _ =>
              .done (Verdict.trusted (p.trust m (some s)))) (some (p.trust m (some s))) _
          exact htrusted.askPlain trivial fun _ hp hr => ⟨rfl, hr.settled hp trivial⟩

/-! ## The command, the loop and the call -/

/-- **The contract of a run**: a password is forgotten only if its own tool rejects it. -/
theorem moves_runWith (hv : Poised k (.mk caller k command timeout) none (some p) h) :
    Talk.Fulfils (Moves k) (.mk caller k command timeout)
      (runWith k p m password command timeout) (some p) h := by
  rw [runWith]
  refine hv.askPlain trivial fun a hp hr => ?_
  rw [Dialogue.done_bind]
  have hsettled := hr.settled hp trivial
  cases a with
  | error f => exact hsettled.ends _
  | ok raw =>
    generalize heard (.mk caller k command timeout) (.run (.elevated m password command timeout))
      (.ok raw) (some p) h = h' at hr hsettled ⊢
    dsimp only
    cases hclean : cleanedReply? m raw with
    | none => exact hsettled.ends _
    | some r =>
      change Talk.Keeps _ _ _
        (if (password.isSome && !r.success && passwordRejected m r) = true then
          .ask (.keep (p.forgetPassword m)) fun _ => .ask (.erase (secretName k m p.user)) fun _ =>
            .done (Ending.finished (.ok ⟨r, some m⟩))
        else .done (Ending.finished (.ok ⟨r, some m⟩))) (some p) _
      split
      · next hrejected =>
        simp only [Bool.and_eq_true, Bool.not_eq_true'] at hrejected
        obtain ⟨⟨hpassword, hfails⟩, hwords⟩ := hrejected
        obtain ⟨s, rfl⟩ := Option.isSome_iff_exists.mp hpassword
        have hforgot :
            Poised k (.mk caller k command timeout) none (some (p.forgetPassword m)) h' := by
          refine hr.poised ⟨fun _ => rfl, fun q hq => ?_, fun l hl => ?_, ?_⟩ ?_
          · exact Option.some.inj hq ▸ hp.forgetPassword m
          · by_cases hlm : l = m
            · subst hlm
              exact .inr ⟨_, List.mem_singleton_self _, s, command, timeout, raw, r, rfl, hclean,
                beq_eq_false_iff_ne.mp hfails, hwords⟩
            · exact .inl (hl.forgetPassword hlm)
          · rintro l t limit b ⟨⟩
          · rintro l t ⟨-, message, user, ⟨⟩, -⟩
        exact hforgot.askPlain trivial fun _ hp hr => (hr.settled hp trivial).ends _
      · exact hsettled.ends _

/-- **The contract of the loop** over the methods. -/
theorem moves_tryMethods (ms : List Method) (passed : List Attempt)
    (hv : Poised k (.mk caller k command timeout) none (some p) h) :
    Talk.Fulfils (Moves k) (.mk caller k command timeout)
      (tryMethods limit k command timeout ms p passed) (some p) h := by
  induction ms generalizing p passed h with
  | nil => exact hv.ends _
  | cons m ms ih =>
    rw [tryMethods]
    split
    · exact ih _ hv
    split
    · exact ih _ hv
    · next hfailed =>
      have hm : m ∉ p.failed := mt List.contains_iff_mem.mpr hfailed
      refine (moves_passwordFor hv hm).bind fun r v h hr => ?_
      obtain ⟨rfl, hr⟩ := hr
      cases r with
      | error o => exact ih _ hr
      | ok password =>
        obtain ⟨hasked, due, hv, hdue⟩ := hr
        dsimp only
        split
        · next hverified =>
          -- Nothing is due of a method that has passed its check.
          cases due with
          | none => exact moves_runWith hv
          | some x => exact absurd (List.contains_iff_mem.mp hverified) (hdue x rfl).1
        · refine (moves_verify hv (fun x hx => (hdue x hx).2) hasked).bind fun r v h hr => ?_
          cases r with
          | trusted q =>
            obtain ⟨rfl, hv⟩ := hr
            exact moves_runWith hv
          | failed q o =>
            obtain ⟨rfl, hv⟩ := hr
            exact ih _ hv
          | broken f =>
            obtain ⟨⟨q, rfl⟩, hv⟩ := hr
            exact hv.ends _
          | unreadable =>
            obtain ⟨⟨q, rfl⟩, hv⟩ := hr
            exact hv.ends _

theorem moves_ascendFrom (settings : ElevationSettings)
    (hv : Poised k (.mk caller k command timeout) none (some p) h) :
    Talk.Fulfils (Moves k) (.mk caller k command timeout)
      (ascendFrom settings k command timeout p) (some p) h := by
  rw [ascendFrom]
  split
  · refine hv.askPlain trivial fun a hp hr => ?_
    have hsettled := hr.settled hp trivial
    cases a with
    | error f => exact hsettled.ends _
    | ok r => exact hsettled.ends _
  · exact moves_tryMethods _ _ hv

/-- **Every call makes fair moves only.** -/
theorem Moves.fulfils_ascend (settings : ElevationSettings) : AllFulfil Moves settings := by
  intro caller k command timeout v h hv
  cases v with
  | some p =>
    have hb : Becomes none (some p) (some p) :=
      .refl (hv.stocked p rfl) (by rintro l s limit b ⟨⟩)
    refine moves_ascendFrom settings ((Ready.turn hv).poised hb ?_)
    rintro m s ⟨-, message, user, ⟨⟩, -⟩
  | none =>
    refine (moves_detect hv).bind fun r v h hr => ?_
    obtain ⟨rfl, told, hr, hprobe, hfound⟩ := hr
    cases r with
    | error f =>
      obtain ⟨hb, hgives⟩ := hprobe.becomes (w := none) (by rintro p ⟨⟩)
      obtain ⟨sent, limit, rfl, hkind⟩ := hfound
      refine hr.moves (.ends hb _ hgives ?_)
      rintro sent' limit' a ⟨⟩ -
      exact ⟨f, rfl, hkind⟩
    | ok p =>
      obtain ⟨hb, hgives⟩ := hprobe.becomes (w := some p) fun q hq => Option.some.inj hq ▸ hfound
      exact moves_ascendFrom settings (hr.poised hb fun m s hms => absurd hms (hgives m s))

end RemoteShell.Elevation
