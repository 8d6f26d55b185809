import RemoteShell.Elevation.Ascent
import RemoteShell.Proofs.Terminal.Cleaning

/-!
# Where elevation crashes

A call reads what methods on a terminal print, after the prompts are cleaned out of it: the answer
to a check that succeeded, and what the command of the caller printed.  Output that cannot be
cleaned ends the call at once.  Nothing else does, so a call crashes exactly if it was told a
garbled output.

## Main definitions

* `Errand.Garbles`, `Query.Garbles`: an answer that cannot be read
* `Talk.Brittle`: a dialogue that breaks at the first such answer, and only there

## Main results

* `Talk.Brittle.bind`, `Talk.Brittle.broken_iff`: sequences, and what a way through a dialogue says
* `brittle_ascend`: elevation is brittle
* `crashed_iff_garbled`: a call crashes exactly if a host prints garbled output on a terminal
-/

namespace RemoteShell.Elevation

/-- **An answer that cannot be read**: a garbled output on the terminal, where a check succeeded or
the command of the caller was run. -/
def Errand.Garbles : Errand → Except Fault Reply → Prop
  | .check m _ _, .ok r => m.onTerminal = true ∧ r.success = true ∧ Terminal.Garbled r.stdout
  | .elevated m _ _ _, .ok r => m.onTerminal = true ∧ Terminal.Garbled r.stdout
  | _, _ => False

/-- Only replies can be garbled. -/
def Query.Garbles : (q : Query) → q.Answer → Prop
  | .run e, a => e.Garbles a
  | _, _ => False

/-! ## Brittle dialogues -/

namespace Talk

variable {α β : Type} {broken : α → Prop} {broken' : β → Prop}

/-- **A brittle dialogue** breaks at the first answer that cannot be read, and only there. -/
def Brittle (broken : α → Prop) : Talk α → Prop
  | .done x => ¬ broken x
  | .ask q next =>
    ∀ a, (q.Garbles a → ∃ x, next a = .done x ∧ broken x) ∧
      (¬ q.Garbles a → Brittle broken (next a))

/-- A question whose answers can all be read. -/
theorem Brittle.ask {q : Query} {next : q.Answer → Talk α} (hq : ∀ a, ¬ q.Garbles a)
    (hnext : ∀ a, Brittle broken (next a)) : Brittle broken (.ask q next) :=
  fun a => ⟨fun ha => absurd ha (hq a), fun _ => hnext a⟩

/-- A command that is run, and a dialogue that goes on with its reply. -/
theorem Brittle.run {e : Errand} {next : Except Fault Reply → Talk α}
    (hbroken : ∀ a, e.Garbles a → ∃ x, next a = .done x ∧ broken x)
    (hnext : ∀ a, ¬ e.Garbles a → Brittle broken (next a)) :
    Brittle broken ((Talk.run e).bind next) :=
  fun a => ⟨hbroken a, hnext a⟩

/-- **Sequences**: a first part that breaks breaks the whole. -/
theorem Brittle.bind {t : Talk α} {f : α → Talk β} (ht : Brittle broken t)
    (hbroken : ∀ x, broken x → ∃ y, f x = .done y ∧ broken' y)
    (hf : ∀ x, ¬ broken x → Brittle broken' (f x)) : Brittle broken' (t.bind f) := by
  induction t with
  | done x => exact hf x ht
  | ask q next ih =>
    intro a
    refine ⟨fun ha => ?_, fun ha => ih a ((ht a).2 ha)⟩
    obtain ⟨x, hx, hbreaks⟩ := (ht a).1 ha
    obtain ⟨y, hy, hbreaks'⟩ := hbroken x hbreaks
    exact ⟨y, (congrArg (·.bind f) hx).trans hy, hbreaks'⟩

/-- **On a way through a brittle dialogue**, it has broken if and only if one of the answers could
not be read. -/
theorem Brittle.broken_iff {t : Talk α} (ht : Brittle broken t)
    {l : List ((q : Query) × q.Answer)} {x : α} (hpath : t.Path l x) :
    broken x ↔ ∃ y ∈ l, y.1.Garbles y.2 := by
  induction hpath with
  | done x => exact iff_of_false ht (by simp)
  | @ask q next a l x hpath ih =>
    rw [List.exists_mem_cons_iff]
    by_cases ha : q.Garbles a
    · obtain ⟨y, hy, hbreaks⟩ := (ht a).1 ha
      rw [hy] at hpath
      cases hpath
      exact iff_of_true hbreaks (.inl ha)
    · rw [or_iff_right ha]
      exact ih ((ht a).2 ha)

/-- A dialogue that is told such an answer at once breaks. -/
theorem Brittle.exists_path {q : Query} {next : q.Answer → Talk α} {a : q.Answer}
    (ht : Brittle broken (.ask q next)) (ha : q.Garbles a) :
    ∃ x, broken x ∧ (Dialogue.ask q next).Path [⟨q, a⟩] x := by
  obtain ⟨x, hx, hbreaks⟩ := (ht a).1 ha
  exact ⟨x, hbreaks, .ask (hx ▸ .done x)⟩

end Talk

/-! ## The functions of a call -/

variable {key : Login} {p : Profile} {m : Method} {password : Option String} {command : String}
  {timeout limit : Duration} {r : Reply}

theorem cleanedReply?_eq_none_iff :
    cleanedReply? m r = none ↔ m.onTerminal = true ∧ Terminal.Garbled r.stdout := by
  rw [cleanedReply?]
  split
  · next hm =>
    rw [Option.map_eq_none_iff, Terminal.cleaned?_eq_none_iff, and_iff_right hm]
  · next hm => simp [hm]

theorem checkReply_eq_none_iff {a : Except Fault Reply} :
    checkReply m a = none ↔ (Errand.check m password limit).Garbles a := by
  cases a with
  | error f => cases f <;> simp [checkReply, Errand.Garbles]
  | ok r =>
    simp only [checkReply, Errand.Garbles]
    split
    · next hsuccess =>
      rw [Option.map_eq_none_iff, cleanedReply?_eq_none_iff]
      simp [hsuccess]
    · next hsuccess => simp [hsuccess]

theorem brittle_detectWith (fallback : String) (qs : List Probe) :
    Talk.Brittle (fun _ => False) (detectWith fallback limit qs p) := by
  induction qs generalizing p with
  | nil => exact id
  | cons q qs ih =>
    rw [detectWith]
    split
    · refine Talk.Brittle.ask (fun _ => id) fun a => ?_
      split
      · exact id
      · exact ih
    · exact ih

theorem brittle_passwordFor (key : Login) (p : Profile) (m : Method) :
    Talk.Brittle (fun _ => False) (passwordFor key p m) := by
  rw [passwordFor]
  split
  · split
    · exact id
    · refine Talk.Brittle.ask (fun _ => id) fun stored => ?_
      cases stored with
      | some s => exact id
      | none =>
        refine Talk.Brittle.ask (fun _ => id) fun said => ?_
        cases said with
        | some s => exact id
        | none => exact id
  · exact id

/-- A check breaks at an answer that cannot be cleaned. -/
theorem brittle_verify (key : Login) (p : Profile) (m : Method) (password : Option String) :
    Talk.Brittle (· = .unreadable) (verify limit key p m password) := by
  rw [verify]
  refine Talk.Brittle.run (fun a ha => ⟨.unreadable, ?_, rfl⟩) fun a ha => ?_
  · rw [checkReply_eq_none_iff.mpr ha]
    rfl
  · have hread : checkReply m a ≠ none := mt checkReply_eq_none_iff.mp ha
    split
    · next hnone => exact absurd hnone hread
    · exact nofun
    · refine Talk.Brittle.ask (fun _ => id) fun _ => ?_
      rw [Dialogue.done_bind]
      split
      · exact Talk.Brittle.ask (fun _ => id) fun _ => nofun
      · exact nofun
    · refine Talk.Brittle.ask (fun _ => id) fun _ => ?_
      rw [Dialogue.done_bind]
      cases password with
      | none => exact nofun
      | some s => exact Talk.Brittle.ask (fun _ => id) fun _ => nofun

/-- The command of the caller breaks the call if what it prints cannot be cleaned. -/
theorem brittle_runWith (key : Login) (p : Profile) (m : Method) (password : Option String) :
    Talk.Brittle (· = .crashed) (runWith key p m password command timeout) := by
  rw [runWith]
  refine Talk.Brittle.run (fun a ha => ⟨.crashed, ?_, rfl⟩) fun a ha => ?_
  · cases a with
    | error f => exact ha.elim
    | ok raw =>
      dsimp only
      rw [cleanedReply?_eq_none_iff.mpr ha]
      rfl
  · cases a with
    | error f => exact nofun
    | ok raw =>
      dsimp only
      split
      · next hnone => exact absurd (cleanedReply?_eq_none_iff.mp hnone) ha
      · split
        · refine Talk.Brittle.ask (fun _ => id) fun _ => ?_
          exact Talk.Brittle.ask (fun _ => id) fun _ => nofun
        · exact nofun

theorem brittle_tryMethods (key : Login) (ms : List Method) (p : Profile)
    (passed : List Attempt) :
    Talk.Brittle (· = .crashed) (tryMethods limit key command timeout ms p passed) := by
  induction ms generalizing p passed with
  | nil => exact nofun
  | cons m ms ih =>
    rw [tryMethods]
    split
    · exact ih p _
    split
    · exact ih p _
    · refine (brittle_passwordFor key p m).bind (fun _ => False.elim) fun r _ => ?_
      cases r with
      | error o => exact ih p _
      | ok password =>
        dsimp only
        split
        · exact brittle_runWith key p m password
        · refine (brittle_verify key p m password).bind ?_ fun v hv => ?_
          · rintro _ rfl
            exact ⟨.crashed, rfl, rfl⟩
          · cases v with
            | unreadable => exact absurd rfl hv
            | broken f => exact nofun
            | failed q o => exact ih q _
            | trusted q => exact brittle_runWith key q m password

theorem brittle_ascendFrom (s : ElevationSettings) (key : Login) (p : Profile) :
    Talk.Brittle (· = .crashed) (ascendFrom s key command timeout p) := by
  rw [ascendFrom]
  split
  · refine Talk.Brittle.ask (fun _ => id) fun a => ?_
    cases a with
    | error f => exact nofun
    | ok r => exact nofun
  · exact brittle_tryMethods key _ p _

/-- **Elevation is brittle**: it crashes at the first garbled output, and only there. -/
theorem brittle_ascend (s : ElevationSettings) (key : Login) (profile : Option Profile) :
    Talk.Brittle (· = .crashed) (ascend s key command timeout profile) := by
  cases profile with
  | some p => exact brittle_ascendFrom s key p
  | none =>
    refine (brittle_detectWith key.user Probe.order).bind (fun _ => False.elim) fun r _ => ?_
    cases r with
    | error f => exact nofun
    | ok p => exact Talk.Brittle.ask (fun _ => id) fun _ => brittle_ascendFrom s key p

/-! ## Calls -/

/-- **When elevation crashes**: an output cannot be cleaned exactly if it is garbled, and a call
crashes exactly if it is told a garbled output of a method on a terminal. -/
theorem crashed_iff_garbled (s : ElevationSettings) (key : Login) (command : String)
    (timeout : Duration) (profile : Option Profile) :
    (∀ output, Terminal.cleaned? output = none ↔ Terminal.Garbled output) ∧
      ∀ l x, (ascend s key command timeout profile).Path l x →
        (x = .crashed ↔ ∃ y ∈ l, y.1.Garbles y.2) :=
  ⟨fun _ => Terminal.cleaned?_eq_none_iff, fun _ _ => (brittle_ascend s key profile).broken_iff⟩

/-- A profile in which `su` has passed its check. -/
def afterSu : Profile :=
  Profile.trust { Profile.ofUser "deploy" with isRoot := false, hasSu := true } .su (some "s3cret")

/-- A command that succeeds and prints what can be cleaned ends the call. -/
theorem path_runWith {raw : Reply} (hclean : cleanedReply? m raw = some r)
    (hsuccess : r.success = true) :
    (runWith key p m password command timeout).Path
      [⟨.run (.elevated m password command timeout), .ok raw⟩]
      (.finished (.ok ⟨r, some m⟩)) := by
  refine .ask ?_
  rw [Dialogue.done_bind]
  dsimp only
  rw [hclean]
  simp only [hsuccess, Bool.not_true, Bool.and_false, Bool.false_and, Bool.false_eq_true, if_false]
  exact .done _

/-- No output of this call is garbled: it did not crash. -/
theorem not_garbled_of_finished :
    (ascend ⟨.ofSecs 10, .ofSecs 10⟩ ⟨"deploy", "db-01", 22⟩ "id" (.ofSecs 30)
        (some afterSu)).Path
        [⟨.run (.elevated .su (some "s3cret") "id" (.ofSecs 30)),
          .ok ⟨"Password: \r\nuid: 0\r\n", "", 0⟩⟩]
        (.finished (.ok ⟨⟨"uid: 0", "", 0⟩, some .su⟩)) ∧
      ¬ Terminal.Garbled "Password: \r\nuid: 0\r\n" := by
  have hclean : cleanedReply? .su ⟨"Password: \r\nuid: 0\r\n", "", 0⟩ =
      some ⟨"uid: 0", "", 0⟩ := by decide +kernel
  have hpath : (ascend ⟨.ofSecs 10, .ofSecs 10⟩ ⟨"deploy", "db-01", 22⟩ "id" (.ofSecs 30)
      (some afterSu)).Path
      [⟨.run (.elevated .su (some "s3cret") "id" (.ofSecs 30)),
        .ok ⟨"Password: \r\nuid: 0\r\n", "", 0⟩⟩]
      (.finished (.ok ⟨⟨"uid: 0", "", 0⟩, some .su⟩)) := path_runWith hclean rfl
  refine ⟨hpath, fun hgarbled => ?_⟩
  cases ((crashed_iff_garbled _ _ _ _ _).2 _ _ hpath).mpr
    ⟨_, List.mem_singleton_self _, rfl, hgarbled⟩

/-- What a command prints that prints a dotted capital I: the capital takes two bytes, its lower
case three. -/
def dottedReply : Reply := ⟨"Password: \r\n\u0130:x\r\n", "", 0⟩

theorem garbled_dottedReply : Terminal.Garbled dottedReply.stdout :=
  Terminal.cleaned?_eq_none_iff.mp (by decide +kernel)

theorem crashed_at_dottedReply :
    Terminal.cleaned? "\u0130:x" = none ∧
      (ascend ⟨.ofSecs 10, .ofSecs 10⟩ ⟨"deploy", "db-01", 22⟩ "ls" (.ofSecs 30)
        (some afterSu)).Path
        [⟨.run (.elevated .su (some "s3cret") "ls" (.ofSecs 30)), .ok dottedReply⟩] .crashed := by
  refine ⟨by decide +kernel, ?_⟩
  have ha : (Query.run (.elevated .su (some "s3cret") "ls" (.ofSecs 30))).Garbles
      (.ok dottedReply) := ⟨rfl, garbled_dottedReply⟩
  obtain ⟨x, rfl, hpath⟩ := Talk.Brittle.exists_path
    (brittle_ascend ⟨.ofSecs 10, .ofSecs 10⟩ ⟨"deploy", "db-01", 22⟩ (some afterSu)) ha
  exact hpath

end RemoteShell.Elevation
