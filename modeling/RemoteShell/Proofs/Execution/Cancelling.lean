import RemoteShell.Proofs.Execution.Callers
import RemoteShell.Proofs.Execution.Waits

/-!
# Commands that are cancelled

A command may be cancelled at any of its waits.  It ends at that instant, asks nobody for anything
from then on, and nothing is said of it to the circuit of its host.  All that the circuit ever hears
of it is that it came.  So the failures of the host and the instant at which the circuit opened are
what the dealings of the other commands make them, and what is left of the command is the place of
the probe, if it took it, until a cool-down has passed since it came.

## Main definitions

* `OnlyCame`: a circuit that has heard of a command only that it came

## Main results

* `OnlyCame.of_encodes`: what such a circuit says
* `cancelled_at_once`: every cancellation
-/

namespace RemoteShell

open Circuit

namespace Circuit.History

variable {p : Policy} {past newer older : List Call} {c : Call} {t came : Instant}

/-- A call is the probe, or the probe was there before. -/
theorem probe?_cons_cases (h : probe? p (c :: past) = some t) :
    c = .acquire t ∧ state p past t = .halfOpen ∨ probe? p past = some t := by
  cases c with
  | acquire now =>
    simp only [probe?] at h
    split at h
    · next hclaims =>
      cases h
      exact .inl ⟨rfl, hclaims.1⟩
    · exact .inr h
  | failure now => cases h
  | success => cases h
  | reset => cases h
  | canExecute now => exact .inr h
  | state now => exact .inr h
  | status host now => exact .inr h

/-- The probe is a call that came. -/
theorem mem_of_probe? (h : probe? p past = some t) : .acquire t ∈ past := by
  induction past with
  | nil => cases h
  | cons c past ih =>
    rcases probe?_cons_cases h with ⟨rfl, -⟩ | h
    · exact List.mem_cons_self
    · exact List.mem_cons_of_mem _ (ih h)

/-- **Who the probe is**: one of the other calls, or a call that found the circuit half open. -/
theorem probe?_append_cases (h : probe? p (newer ++ .acquire came :: older) = some t) :
    .acquire t ∈ newer ++ older ∨ t = came ∧ state p older t = .halfOpen := by
  induction newer with
  | nil =>
    rcases probe?_cons_cases h with ⟨hcame, hhalf⟩ | h
    · cases hcame
      exact .inr ⟨rfl, hhalf⟩
    · exact .inl (mem_of_probe? h)
  | cons c newer ih =>
    rcases probe?_cons_cases h with ⟨rfl, -⟩ | h
    · exact .inl List.mem_cons_self
    · exact (ih h).imp_left (List.mem_cons_of_mem _)

end Circuit.History

namespace Hub

/-! ## Circuits that have heard only that a command came -/

variable {id : CallId} {came : Option Instant} {since before : List Dealing} {p : Policy}
  {b : Breaker}

/-- **A circuit has heard of a command only that it came**, at some instant or not at all, between
the dealings that others had before and since.  Its failures and the instant at which it opened are
those of the others.  When it refuses a call then it is open, or the place of the probe is taken,
for less than a cool-down, by another command or by the coming of this one, which found the circuit
half open. -/
structure OnlyCame (p : Policy) (id : CallId) (came : Option Instant)
    (since before : List Dealing) (b : Breaker) : Prop where
  silent : ∀ d ∈ since, d.caller ≠ some id
  failures : b.failures.toNat =
    min (History.failures (told since ++ told before)) (UInt32.size - 1)
  openedAt : b.openedAt =
    if History.failures (told since ++ told before) < History.needed p then none
    else History.lastFailure? (told since ++ told before)
  refuses : ∀ now, b.refuses p now = true → b.state p now = .opened ∨
    ∃ t, b.probeAt = some t ∧ now.since t < p.cooldown ∧
      (.acquire t ∈ told since ++ told before ∨
        came = some t ∧ History.state p (told before) t = .halfOpen)

/-- **What a circuit says** that has heard of a command only that it came. -/
theorem OnlyCame.of_encodes (hsilent : ∀ d ∈ since, d.caller ≠ some id)
    (hb : b.Encodes p (told since ++ (came.toList.map .acquire ++ told before))) :
    OnlyCame p id came since before b := by
  -- That the command came says nothing of failures; only the probe may be due to it.
  have halike : History.Alike (told since ++ (came.toList.map .acquire ++ told before))
      (told since ++ told before) := by
    refine History.Alike.append ?_ (told since)
    cases came with
    | none => exact ⟨rfl, rfl⟩
    | some t => exact History.Alike.acquire ⟨rfl, rfl⟩ t
  refine ⟨hsilent, ?_, ?_, fun now hrefuses => ?_⟩
  · rw [hb.failures, halike.failures]
  · rw [hb.openedAt, halike.failures, halike.lastFailure]
  · unfold Breaker.refuses at hrefuses
    cases hstate : b.state p now with
    | closed => simp [hstate] at hrefuses
    | opened => exact .inl rfl
    | halfOpen =>
      rw [hstate] at hrefuses
      obtain ⟨t, hprobe, hlt⟩ := (Option.any_eq_true _ _).mp hrefuses
      refine .inr ⟨t, hprobe, of_decide_eq_true hlt, ?_⟩
      have hprobe := hb.probeAt.symm.trans hprobe
      cases came with
      | none => exact .inl (History.mem_of_probe? hprobe)
      | some came =>
        rcases History.probe?_append_cases hprobe with hmem | ⟨rfl, hhalf⟩
        · exact .inl hmem
        · exact .inr ⟨rfl, hhalf⟩

namespace Traffic

open Execution (Task)

variable {s t u s₀ s₁ : Traffic} {now t₀ c : Instant} {host : String} {task : Task}
  {cancelled : Bool} {x y : Execution} {before between es : List (Instant × Event)}
  {settings : Settings} {walk : Pool.Walk}

/-! ## From the gate to the cancellation -/

/-- A command that waits works on the task with which it began. -/
theorem task_of_execute (hs : s.step now (.execute id task cancelled) = some t)
    (hx : t.calls.get? id = some (.execution x)) : x.task = task := by
  rcases waits_of_step hs rfl hx with ⟨_, _, heq, hstart⟩ | ⟨_, _, heq, -⟩
  · cases heq
    have hwaits := congrArg Prod.snd hstart
    rcases Execution.start_cases id task cancelled now s.hub with
      ⟨f, -, hends⟩ | ⟨f, -, -, hends⟩ | ⟨-, -, hturn⟩
    · cases (congrArg Prod.snd hends).symm.trans hwaits
    · cases (congrArg Prod.snd hends).symm.trans hwaits
    · exact hturn.task_of_waits hwaits
  · cases heq

/-- **A command works on the same task** as long as it is under way. -/
theorem task_run (hes : ∀ y ∈ es, y.2.executes id = false) (hrun : s.run es = some t)
    (hx : s.calls.get? id = some (.execution x)) (hy : t.calls.get? id = some (.execution y)) :
    y.task = x.task := by
  induction es generalizing s x with
  | nil =>
    cases hrun
    cases hx.symm.trans hy
    rfl
  | cons e es ih =>
    obtain ⟨now, e⟩ := e
    obtain ⟨he, hes⟩ := List.forall_mem_cons.mp hes
    obtain ⟨u, hstep, hrun⟩ := Option.bind_eq_some_iff.mp hrun
    -- The command is under way after the first event as well, since it is at the end.
    obtain ⟨z, hz⟩ := exists_of_run hes hrun hy
    refine (ih hes hrun hz).trans ?_
    by_cases hid : e.call? = some id
    · rcases waits_of_step hstep hid hz with ⟨_, _, rfl, -⟩ | ⟨x', a, rfl, hx', hears, hresume⟩
      · simp [Event.executes] at he
      · cases hx.symm.trans hx'
        obtain ⟨heard, -, -, hturn⟩ := Execution.resume_turn hears now
        exact hturn.task_of_waits (congrArg Prod.snd hresume)
    · cases hx.symm.trans ((get?_step_of_ne hstep hid).symm.trans hz)
      rfl

/-- A command that is admitted, and comes to a wait, has come to the circuit of its host. -/
theorem dealingsIn_of_admits (hgate : s.hub.admits task cancelled now = true)
    (hs : s.step now (.execute id task cancelled) = some t)
    (hx : t.calls.get? id = some (.execution x)) (host : String) :
    s.dealingsIn host t now (.execute id task cancelled) =
      if task.target.host = host then [⟨some id, .acquire now⟩] else [] := by
  have href : Execution.refusal task cancelled = .ok () := by
    cases href : Execution.refusal task cancelled with
    | ok => rfl
    | error f => simp [admits, href, Except.isOk, Except.toBool] at hgate
  rw [dealingsIn, newNotes_same (journal_of_waits hs rfl hx)]
  simp [Event.gatings, href]

/-- **Nothing is said of a command that is cancelled.** -/
theorem dealingsIn_cancel (hs : s.step now (.cancel id) = some t) (host : String) :
    s.dealingsIn host t now (.cancel id) = [] := by
  cases happens hs with
  | cancels call =>
    rw [dealingsIn, newNotes_cons rfl]
    simp [Note.dealing?, Note.verdict?, verdict?, Fault.kind, FaultKind.counting, Event.gatings]

/-- A command that is admitted and then has no more dealings is to its circuit one that came. -/
theorem onlyCame_of_silent (hbefore : (idle settings walk).run before = some s₀)
    (hgate : s₀.hub.admits task cancelled t₀ = true)
    (hstep : s₀.step t₀ (.execute id task cancelled) = some s₁)
    (hx : s₁.calls.get? id = some (.execution x)) (hrun : s₁.run es = some u)
    (hsilent : own id (s₁.dealings host es) = []) :
    OnlyCame settings.circuit id (if task.target.host = host then some t₀ else none)
      (s₁.dealings host es) ((idle settings walk).dealings host before)
      (u.hub.circuits.breaker host) := by
  have hrecalls : u.hub.circuits.Recalls settings.circuit _ :=
    recalls_run (recalls_step (recalls_run (.empty settings.circuit) hbefore) hstep) hrun
  have hkeeps := hrecalls.keeps host
  simp only [hrecalls.policy, dealingsIn_of_admits hgate hstep hx, List.append_nil] at hkeeps
  refine .of_encodes (fun d hd hown => ?_) ?_
  · exact List.filter_eq_nil_iff.mp hsilent d hd (decide_eq_true hown)
  · by_cases hhost : task.target.host = host
    · simpa [hhost, told] using hkeeps
    · simpa [hhost, told] using hkeeps

/-! ## Every cancellation -/

/-- **Every cancellation takes effect at once, and is neutral.**  Let a command be admitted, and let
it be cancelled wherever it waits.  It ends at that instant as cancelled, and it asks nobody for
anything from then on.  The circuits stay as they are, and whatever happens after, the circuit of
its host has heard of it only that it came, and those of other hosts have heard nothing. -/
theorem cancelled_at_once (hbefore : (idle settings walk).run before = some s₀)
    (hgate : s₀.hub.admits task cancelled t₀ = true)
    (hstep : s₀.step t₀ (.execute id task cancelled) = some s₁)
    (hbetween : ∀ y ∈ between, y.2.executes id = false) (hrun : s₁.run between = some s)
    (hx : s.calls.get? id = some (.execution x)) (c : Instant) :
    ∃ t, s.step c (.cancel id) = some t ∧
      t.journal = .ended id task.target.host true (.finished (.error .cancelled)) c :: s.journal ∧
      t.calls = s.calls.erase id ∧ t.hub.circuits = s.hub.circuits ∧
      ∀ after, (∀ y ∈ after, y.2.executes id = false) →
        t.asked id after = [] ∧
        ∀ u, t.run after = some u → ∀ host,
          OnlyCame settings.circuit id (if task.target.host = host then some t₀ else none)
            (s₁.dealings host (between ++ (c, .cancel id) :: after))
            ((idle settings walk).dealings host before) (u.hub.circuits.breaker host) := by
  obtain ⟨x₁, hx₁⟩ := exists_of_run hbetween hrun hx
  have htask : x.task = task :=
    (task_run hbetween hrun hx₁ hx).trans (task_of_execute hstep hx₁)
  have hcancel : s.step c (.cancel id) =
      some ((s.orphan (.execution x)).after id task.target.host true c
        (x.abandon s.hub, .ends (.finished (.error .cancelled)))) := by
    rw [step, hx, ← htask]
    rfl
  refine ⟨_, hcancel, rfl, rfl, x.circuits_abandon s.hub, fun after hafter => ?_⟩
  generalize (s.orphan (.execution x)).after id task.target.host true c
    (x.abandon s.hub, .ends (.finished (.error .cancelled))) = t at hcancel ⊢
  have hgone : t.Gone id := by
    cases happens hcancel with
    | cancels call => exact gone_of_get?_eq_none (Assoc.get?_erase_self ..)
  refine ⟨hgone.asked_eq hafter, fun u hu host => ?_⟩
  refine onlyCame_of_silent hbefore hgate hstep hx₁ ?_ ?_
  · rw [run_append, hrun, Option.bind_some, run, hcancel]
    exact hu
  · rw [dealings_append hrun, dealings_cons hcancel, dealingsIn_cancel hcancel, List.append_nil,
      own_append, hgone.own_dealings hafter, own_dealings_of_waits hbetween hrun hx]
    rfl

/-- A command is refused by the host, which opens the circuit. -/
def refusedOnce : List (Instant × Event) :=
  [(.start, .execute 0 (listing "u") false),
    (.start, .answer 0 (.connected (.error (.authenticationFailed "u" "a" "no" false))))]

/-- The probe behind a half-open circuit is cancelled: the failure before it stays the only one, and
the place of the probe is taken for a cool-down since it came. -/
theorem cancelled_probe_after_refusedOnce :
    ∃ s₀ s₁ t,
      (idle { Settings.standard ⟨[]⟩ with circuit := ⟨1, ⟨60⟩⟩ }).run refusedOnce = some s₀ ∧
      s₀.step ⟨60⟩ (.execute 1 (listing "v") false) = some s₁ ∧
      s₁.step ⟨70⟩ (.cancel 1) = some t ∧
      t.journal = .ended 1 "a" true (.finished (.error .cancelled)) ⟨70⟩ :: s₁.journal ∧
      (t.hub.circuits.breaker "a").failures.toNat = 1 ∧
      (t.hub.circuits.breaker "a").openedAt = some .start ∧
      (t.hub.circuits.breaker "a").refuses ⟨1, ⟨60⟩⟩ ⟨119⟩ = true ∧
      (t.hub.circuits.breaker "a").refuses ⟨1, ⟨60⟩⟩ ⟨120⟩ = false := by
  obtain ⟨s₀, s₁, x, hbefore, hgate, hstep, hx, hdealings, hsince, hrefuses, hfree⟩ :
      ∃ s₀ s₁ x,
        (idle { Settings.standard ⟨[]⟩ with circuit := ⟨1, ⟨60⟩⟩ }).run refusedOnce = some s₀ ∧
        s₀.hub.admits (listing "v") false ⟨60⟩ = true ∧
        s₀.step ⟨60⟩ (.execute 1 (listing "v") false) = some s₁ ∧
        s₁.calls.get? 1 = some (.execution x) ∧
        (idle { Settings.standard ⟨[]⟩ with circuit := ⟨1, ⟨60⟩⟩ }).dealings "a" refusedOnce =
          [⟨some 0, .failure .start⟩, ⟨some 0, .acquire .start⟩] ∧
        s₁.dealings "a" [(⟨70⟩, .cancel 1)] = [] ∧
        (s₁.hub.circuits.breaker "a").refuses ⟨1, ⟨60⟩⟩ ⟨119⟩ = true ∧
        (s₁.hub.circuits.breaker "a").refuses ⟨1, ⟨60⟩⟩ ⟨120⟩ = false :=
    ⟨_, _, _, rfl, rfl, rfl, rfl, rfl, rfl, rfl, rfl⟩
  obtain ⟨t, hcancel, hjournal, -, hcircuits, hafter⟩ :=
    cancelled_at_once hbefore hgate hstep (List.forall_mem_nil _) rfl hx ⟨70⟩
  have honly := (hafter [] (List.forall_mem_nil _)).2 t rfl "a"
  rw [List.nil_append, hsince, hdealings] at honly
  rw [← hcircuits] at hrefuses hfree
  exact ⟨s₀, s₁, t, hbefore, hstep, hcancel, hjournal, honly.failures, honly.openedAt, hrefuses,
    hfree⟩

end Traffic

end Hub

end RemoteShell
