import RemoteShell.Proofs.Execution.Dealings

/-!
# The account of a host

The circuit of a host counts the commands that failed on it.  This module reads the count off the
notes on the commands, whatever calls overlap and whatever becomes of them: a command that was
admitted counts once, when it ends, and only if its fault says something about the host; how often
it tried does not matter.  A success, the lack of a method of elevation and a reset by hand make the
host begin anew.  Nothing else counts, above all no command that was refused or cancelled, and none
on another host.

## Main definitions

* `Traffic.failures`, `Traffic.lastFailure?`: the failures of a host since it last began anew
* `Accounts`: the breakers encode the notes

## Main results

* `accounts_step`, `accounts_run`: whatever happens on a hub is accounted for
* `notesOn_le_begun`: a command is noted at most once
* `failures_accounted`: what a circuit counts, and whom it refuses
-/

namespace RemoteShell

open Circuit

namespace Hub

/-! ## The breakers encode the notes -/

/-- **A registry accounts for notes**: the breaker of each host encodes a history that says of
failures what the notes say. -/
structure Accounts (p : Policy) (journal : List Note) (r : Registry) : Prop where
  policy : r.policy = p
  histories : ∃ past, r.Keeps past ∧ ∀ host, History.Alike (past host) (verdicts host journal)

protected theorem Accounts.empty (p : Policy) : Accounts p [] (.empty p) :=
  ⟨rfl, fun _ => [], .empty p, fun _ => ⟨rfl, rfl⟩⟩

namespace Traffic

variable {s t : Traffic} {now : Instant} {e : Event} {id i : CallId} {host : String}
  {es : List (Instant × Event)} {settings : Settings} {walk : Pool.Walk} {p : Policy}

/-! ## Events -/

/-- That a command comes to the circuit says nothing of failures. -/
theorem alike_gatings {past past' : List Circuit.Call} (h : History.Alike past past')
    (host : String) (now : Instant) (e : Event) :
    History.Alike (told (e.gatings host now) ++ past) past' := by
  cases e with
  | execute id task cancelled =>
    rw [Event.gatings]
    split
    · exact h.acquire now
    · exact h
  | _ => exact h

/-- **One event is accounted for**: of its dealings only those are noted that say something of
failures. -/
theorem accounts_step (ha : Accounts p s.journal s.hub.circuits) (hs : s.step now e = some t) :
    Accounts p t.journal t.hub.circuits := by
  obtain ⟨hpolicy, past, hkeeps, halike⟩ := ha
  obtain ⟨hpolicy, hkeeps⟩ := recalls_step ⟨hpolicy, hkeeps⟩ hs
  refine ⟨hpolicy, _, hkeeps, fun host => ?_⟩
  rw [told_dealingsIn, List.append_assoc, verdicts_of_step hs]
  exact (alike_gatings (halike host) host now e).append _

/-- Whatever happens on a hub is accounted for. -/
theorem accounts_run (h : (idle settings walk).run es = some s) :
    Accounts settings.circuit s.journal s.hub.circuits := by
  induction es using List.reverseRecOn generalizing s with
  | nil =>
    cases h
    exact .empty settings.circuit
  | append_singleton es x ih =>
    obtain ⟨u, hu, hstep⟩ := run_snoc_eq_some.mp h
    exact accounts_step (ih hu) hstep

/-! ## One note for each command -/

/-- How often a number stands in the notes on commands. -/
def notesOn (s : Traffic) (id : CallId) : Nat := s.journal.countP fun n => n.call? = some id

/-- The notes on a command, and the one that it will leave if it is under way. -/
def shares (s : Traffic) (id : CallId) : Nat :=
  match s.calls.get? id with
  | some (.execution _) => s.notesOn id + 1
  | _ => s.notesOn id

/-- How often a command was begun under a number. -/
def begun (es : List (Instant × Event)) (id : CallId) : Nat :=
  es.countP fun x => x.2.executes id

theorem notesOn_le_shares (s : Traffic) (id : CallId) : s.notesOn id ≤ s.shares id := by
  unfold shares
  split
  · exact Nat.le_succ _
  · exact Nat.le_refl _

/-- A command that goes on will leave its note, or has left it. -/
theorem shares_after_self (s : Traffic) (id : CallId) (host : String) (admitted : Bool)
    (now : Instant) (x : Hub × Progress Execution Execution.Result) :
    (s.after id host admitted now x).shares id = s.notesOn id + 1 := by
  obtain ⟨h, y | r⟩ := x
  · simp [after, shares, notesOn]
  · simp [after, shares, notesOn, Note.call?]

theorem shares_after_of_ne (s : Traffic) (hi : i ≠ id) (host : String) (admitted : Bool)
    (now : Instant) (x : Hub × Progress Execution Execution.Result) :
    (s.after id host admitted now x).shares i = s.shares i := by
  obtain ⟨h, y | r⟩ := x
  · simp only [after, shares, notesOn, Assoc.get?_put_of_ne _ _ hi]
  · simp only [after, shares, notesOn, Assoc.get?_erase_of_ne _ hi, Note.call?,
      List.countP_cons, Option.some.injEq, hi.symm, decide_false]
    rfl

theorem shares_of_get?_eq_none (h : s.calls.get? id = none) : s.shares id = s.notesOn id := by
  simp only [shares, h]

theorem shares_of_execution {x : Execution} (h : s.calls.get? id = some (.execution x)) :
    s.shares id = s.notesOn id + 1 := by
  simp only [shares, h]

/-- A removal leaves no note. -/
theorem shares_afterRemoval_le (s : Traffic) (id i : CallId)
    (x : Hub × Progress Pool.Removal Nat) : (s.afterRemoval id x).shares i ≤ s.shares i := by
  have hnotes : (s.afterRemoval id x).notesOn i = s.notesOn i := by
    obtain ⟨h, r | n⟩ := x <;> rfl
  by_cases hi : i = id
  · subst hi
    have hshares : (s.afterRemoval i x).shares i = (s.afterRemoval i x).notesOn i := by
      obtain ⟨h, r | n⟩ := x
      · simp [afterRemoval, shares]
      · simp [afterRemoval, shares]
    rw [hshares, hnotes]
    exact s.notesOn_le_shares i
  · simp only [shares, s.get?_afterRemoval_of_ne hi, hnotes]
    exact Nat.le_refl _

/-- A command that goes on leaves its note or is still to leave it. -/
theorem shares_after_le {x : Execution} (h : s.calls.get? id = some (.execution x)) (i : CallId)
    (host : String) (admitted : Bool) (now : Instant)
    (y : Hub × Progress Execution Execution.Result) :
    (s.after id host admitted now y).shares i ≤ s.shares i := by
  by_cases hi : i = id
  · subst hi
    exact Nat.le_of_eq ((s.shares_after_self i _ _ now y).trans (shares_of_execution h).symm)
  · exact Nat.le_of_eq (s.shares_after_of_ne hi _ _ now y)

/-- **One event leaves no note more than commands have begun.** -/
theorem shares_step_le (hs : s.step now e = some t) (i : CallId) :
    t.shares i ≤ s.shares i + (e.executes i).toNat := by
  cases happens hs with
  | @executes id task cancelled new =>
    by_cases hi : i = id
    · subst hi
      rw [shares_after_self, shares_of_get?_eq_none new]
      simp [Event.executes]
    · rw [shares_after_of_ne s hi]
      exact Nat.le_add_right _ _
  | @orders id o new => exact s.shares_afterRemoval_le id i _
  | resumes call hears => exact shares_after_le call i _ _ now _
  | @removes id a r call hears => exact s.shares_afterRemoval_le id i _
  | @cancels id x call =>
    -- Which closes wait for nobody any more is not noted.
    exact shares_after_le (s := s.orphan (.execution x)) call i _ _ now _
  | @abandons id c call =>
    by_cases hi : i = id
    · subst hi
      rw [shares_of_get?_eq_none (Assoc.get?_erase_self ..)]
      exact s.notesOn_le_shares i
    · have hcalls : (s.abandon id c).calls.get? i = s.calls.get? i :=
        Assoc.get?_erase_of_ne _ hi
      simp only [shares, hcalls]
      exact Nat.le_refl _
  | resets host => simp [shares, notesOn, Note.call?]
  | clears host => exact Nat.le_refl _

/-- **A command is noted at most once.** -/
theorem notesOn_le_begun (h : (idle settings walk).run es = some s) (id : CallId) :
    s.notesOn id ≤ begun es id := by
  suffices hshares : s.shares id ≤ begun es id from
    Nat.le_trans (s.notesOn_le_shares id) hshares
  induction es using List.reverseRecOn generalizing s with
  | nil =>
    cases h
    exact Nat.le_refl _
  | append_singleton es x ih =>
    obtain ⟨u, hu, hstep⟩ := run_snoc_eq_some.mp h
    have hone := shares_step_le hstep id
    have hbegun : begun (es ++ [x]) id = begun es id + (x.2.executes id).toNat := by
      rw [begun, begun, List.countP_append, List.countP_singleton]
      cases x.2.executes id <;> rfl
    have hu := ih hu
    omega

/-! ## What the circuits say -/

/-- **The failures of a host**: the admitted commands on it that ended with a fault that counts,
since the latest success, lack of elevation or reset. -/
def failures (s : Traffic) (host : String) : Nat := History.failures (verdicts host s.journal)

/-- The instant at which the latest of these commands ended. -/
def lastFailure? (s : Traffic) (host : String) : Option Instant :=
  History.lastFailure? (verdicts host s.journal)

/-- **What the circuit of a host counts** are the failures of the host, as far as 32 bits can
count; no command is noted more often than it was begun; and once there were enough failures, a
well-formed command that comes within a cool-down of the latest of them is refused with the rest of
the cool-down, and neither the pool nor any other call learns of it. -/
theorem failures_accounted (h : (idle settings walk).run es = some s) :
    (∀ host now, (s.hub.circuits.status host now).failures.toNat =
      min (s.failures host) (UInt32.size - 1)) ∧
    (∀ id, s.notesOn id ≤ begun es id) ∧
    ∀ host, max 1 settings.circuit.threshold.toNat ≤ s.failures host →
      ∃ last, s.lastFailure? host = some last ∧
        ∀ id task now, task.target.host = host → Execution.refusal task false = .ok () →
          s.calls.get? id = none → now.since last < settings.circuit.cooldown →
          ∃ t, s.step now (.execute id task false) = some t ∧ t.calls = s.calls ∧
            t.hub.pool = s.hub.pool ∧ t.hub.elevation = s.hub.elevation ∧
            t.journal = .ended id host false (.finished (.error
              (.circuitOpen host (settings.circuit.cooldown.minus (now.since last))))) now ::
                s.journal := by
  obtain ⟨hpolicy, past, hkeeps, halike⟩ := accounts_run h
  refine ⟨fun host now => ?_, notesOn_le_begun h, fun host hn => ?_⟩
  · rw [failures, ← (halike host).failures]
    exact (hkeeps host).failures
  · rw [failures, ← (halike host).failures] at hn
    obtain ⟨last, hlast⟩ := History.exists_lastFailure_of_needed hn
    refine ⟨last, (halike host).lastFailure.symm.trans hlast, ?_⟩
    rintro id task now rfl href hnew hlt
    rw [← hpolicy] at hn hlt ⊢
    have hgate := hkeeps.acquire_of_open hn hlast hlt
    have hadmits : s.hub.admits task false now = false := by
      simp [admits, hgate, Except.isOk, Except.toBool]
    have hcalls : s.calls.erase id = s.calls := Assoc.erase_of_get?_eq_none hnew
    refine ⟨_, by rw [step, if_neg (by simp [Assoc.has, hnew])], ?_⟩
    rcases Execution.start_cases id task false now s.hub with
      ⟨f, hf, -⟩ | ⟨f, -, hf, hstart⟩ | ⟨-, hok, -⟩
    · cases href.symm.trans hf
    · cases hf.symm.trans hgate
      rw [hadmits, hstart]
      exact ⟨hcalls, rfl, rfl, rfl⟩
    · cases hok.symm.trans hgate

/-- The commands of two users on one host overlap, and both are refused. -/
def twoRefused : List (Instant × Event) :=
  [(.start, .execute 0 (listing "u") false), (.start, .execute 1 (listing "v") false),
    (.start, .answer 0 (.connected (.error (.authenticationFailed "u" "a" "no" false)))),
    (⟨5⟩, .answer 1 (.connected (.error (.authenticationFailed "v" "a" "no" false))))]

/-- Two failures open a circuit with the threshold two, for a third user as well. -/
theorem failures_accounted_of_two_refused :
    ∃ s, (idle { Settings.standard ⟨[]⟩ with circuit := ⟨2, ⟨60⟩⟩ }).run twoRefused = some s ∧
      (s.hub.circuits.status "a" ⟨7⟩).failures = 2 ∧
      ∃ t, s.step ⟨7⟩ (.execute 2 (listing "w") false) = some t ∧ t.calls = s.calls ∧
        t.journal = .ended 2 "a" false (.finished (.error (.circuitOpen "a" ⟨58⟩))) ⟨7⟩ ::
          s.journal := by
  obtain ⟨s, hs, hfailures, hlast, hquiet⟩ :
      ∃ s, (idle { Settings.standard ⟨[]⟩ with circuit := ⟨2, ⟨60⟩⟩ }).run twoRefused = some s ∧
        s.failures "a" = 2 ∧ s.lastFailure? "a" = some ⟨5⟩ ∧ s.calls = [] :=
    ⟨_, rfl, rfl, rfl, rfl⟩
  obtain ⟨hcount, -, hopen⟩ := failures_accounted hs
  refine ⟨s, hs, ?_, ?_⟩
  · have h := hcount "a" ⟨7⟩
    rw [hfailures] at h
    exact UInt32.toNat_inj.mp h
  · obtain ⟨last, hlast', hrefused⟩ := hopen "a" (by rw [hfailures]; decide)
    cases hlast.symm.trans hlast'
    obtain ⟨t, ht, hcalls, -, -, hjournal⟩ :=
      hrefused 2 (listing "w") ⟨7⟩ rfl rfl (by rw [hquiet]; rfl) (by decide)
    exact ⟨t, ht, hcalls, hjournal⟩

end Traffic

end Hub

end RemoteShell
