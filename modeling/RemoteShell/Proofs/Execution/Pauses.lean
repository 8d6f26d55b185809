import RemoteShell.Proofs.Backoff.Delays
import RemoteShell.Proofs.Execution.Tries

/-!
# The pauses of a command

Between two tries a command pauses, once, and at no other time: not before the first try and not
after the last one.  The pause before a retry is the wait that comes after so many waits, whatever
the pool, the engine and the other calls do in between.  So a command pauses as it is meant to if
and only if its first wait is not longer than the longest one and doubling does not round; a first
wait that is longer is waited for in full.

## Main definitions

* `Beat`, `Traffic.beats`: the tries and the pauses of a command in a run
* `paced`: tries with the pauses between them
* `Rhythm`: what a command keeps to

## Main results

* `resume_inTime`, `start_inTime`: one turn
* `paused_as_promised_iff`: every run
-/

namespace RemoteShell

namespace Execution

/-! ## Tries and pauses -/

/-- **A try begins, or a pause.** -/
inductive Beat where
  | tries
  | pauses (d : Duration)
  deriving DecidableEq

/-- The pause that a turn has come to. -/
def rests : Hub × Progress Execution Result → List Beat
  | (h, .waits y) =>
    match y.phase, y.wait h with
    | .backingOff, .pause d => [.pauses d]
    | _, _ => []
  | (_, .ends _) => []

/-- The try that an answer begins: the pause is over. -/
def retries (x : Execution) (a : Answer) : List Beat :=
  match x.phase, a with
  | .backingOff, .done => [.tries]
  | _, _ => []

/-- **Tries with the pauses between them**, so many of each. -/
def paced (s : RetrySettings) : Nat → List Beat
  | 0 => [.tries]
  | n + 1 => paced s n ++ [.pauses (s.delay n), .tries]

/-- **The rhythm of a command**: it has made a try and some retries, each after its pause, and may
be in a pause before another one that it has. -/
def Rhythm (t : Task) (bs : List Beat) : Prop :=
  ∃ n, n < t.limit ∧ (bs = paced t.retry n ∨
    n + 1 < t.limit ∧ bs = paced t.retry n ++ [.pauses (t.retry.delay n)])

variable {t : Task} {x y : Execution} {bs : List Beat} {f : Fault} {n : Nat} {c : ConnId}
  {h : Hub} {now : Instant} {a : Answer}

/-! ## Turns that begin no try -/

/-- **A turn begins no try**: it keeps count of the tries and of the pause, and comes to a pause
only if a try is left. -/
def Steady (x : Execution) (p : Progress Execution Result) : Prop :=
  ∀ y, p = .waits y → y.task = x.task ∧ y.attempts = x.attempts ∧ y.delay = x.delay ∧
    (y.phase = .backingOff → x.attempts < x.task.limit)

theorem steady_ends (x : Execution) (r : Result) : x.Steady (.ends r) := by
  intro y hy
  cases hy

theorem steady_goOn {phase : Phase} (hphase : phase ≠ .backingOff) :
    x.Steady (x.goOn phase h).2 := by
  rintro y hy
  cases hy
  exact ⟨rfl, rfl, rfl, fun h => absurd h hphase⟩

theorem steady_retry : x.Steady (x.retry f now h).2 := by
  unfold retry
  split
  · next hagain =>
    rintro y hy
    cases hy
    have hleft : x.attempts < x.task.retry.maxRetries :=
      of_decide_eq_true (Bool.and_eq_true_iff.mp hagain).2
    exact ⟨rfl, rfl, rfl, fun _ => Nat.lt_of_lt_of_le hleft (Nat.le_max_right ..)⟩
  · exact steady_ends _ _

theorem steady_discard : x.Steady (x.discard c f now h).2 := by
  unfold discard
  split
  · split
    · exact steady_goOn nofun
    · exact steady_retry
  · exact steady_retry

theorem steady_drop : x.Steady (x.drop c f now h).2 := by
  unfold drop
  split
  · split
    · exact steady_goOn nofun
    · exact steady_ends _ _
  · exact steady_ends _ _

theorem steady_afterGet (p : Hub × Progress Pool.Get Pool.Get.Result) :
    x.Steady (x.afterGet now p).2 := by
  obtain ⟨h, g | f | c⟩ := p
  · exact steady_goOn nofun
  · exact steady_retry
  · exact steady_goOn nofun

theorem steady_afterClimb (p : Hub × Progress Elevation.Climb Elevation.Climb.Result) :
    x.Steady (x.afterClimb c now p).2 := by
  obtain ⟨h, d | (f | out) | _⟩ := p
  · exact steady_goOn nofun
  · exact steady_drop
  · exact steady_ends _ _
  · exact steady_ends _ _

theorem steady_afterReply {key : Login} {r : Reply} :
    x.Steady (x.afterReply c key r now h).2 := by
  unfold afterReply
  split
  · exact steady_afterClimb _
  · exact steady_ends _ _

/-- **A command goes on without a new try** unless a pause is over. -/
theorem steady_resume (hphase : x.phase ≠ .backingOff) (ha : x.mayHear h a = true) :
    x.Steady (x.resume a now h).2 := by
  obtain ⟨caller, task, attempts, delay, phase⟩ := x
  cases phase with
  | getting g => exact steady_afterGet _
  | running c =>
    cases a with
    | replied o =>
      cases o with
      | error f => exact steady_discard
      | ok r => exact steady_afterReply
    | _ => cases ha
  | discarding r f =>
    unfold resume
    dsimp only
    split
    · exact steady_goOn nofun
    · exact steady_retry
  | backingOff => exact absurd rfl hphase
  | elevating c climb => exact steady_afterClimb _
  | dropping r f =>
    unfold resume
    dsimp only
    split
    · exact steady_goOn nofun
    · exact steady_ends _ _

/-! ## Every turn -/

/-- **A command is in time**: so many retries were begun, and the pause that comes next is the wait
that comes after so many waits. -/
structure InTime (t : Task) (n : Nat) (x : Execution) : Prop where
  task : x.task = t
  attempts : x.attempts = n + 1
  delay : x.delay = t.retry.delay n
  left : x.phase = .backingOff → n + 1 < t.limit

/-- What a turn comes to is in time. -/
def ComesInTime (t : Task) (n : Nat) (p : Hub × Progress Execution Result) : Prop :=
  n < t.limit ∧ ∀ y, p.2 = .waits y → Execution.InTime t n y

/-- Only a command that backs off is in a pause. -/
theorem backingOff_of_rests {b : Beat} (hb : b ∈ rests (h, .waits y)) : y.phase = .backingOff := by
  cases hphase : y.phase with
  | backingOff => rfl
  | _ => simp [rests, hphase] at hb

/-- A pause is the same on every hub. -/
theorem rests_waits (y : Execution) (h h' : Hub) : rests (h, .waits y) = rests (h', .waits y) := by
  cases hphase : y.phase <;> simp only [rests, wait, hphase]

/-- What is added to the tries and pauses so far fits the rhythm. -/
theorem rests_eq (hy : InTime t n y) (h : Hub) :
    rests (h, .waits y) = [] ∨
      n + 1 < t.limit ∧ rests (h, .waits y) = [.pauses (t.retry.delay n)] := by
  cases hphase : y.phase with
  | backingOff =>
    refine .inr ⟨hy.left hphase, ?_⟩
    simp only [rests, wait, hphase, hy.delay]
  | _ => exact .inl (by simp only [rests, hphase])

theorem rhythm_of_comes {p : Hub × Progress Execution Result} (hp : ComesInTime t n p) :
    Rhythm t (paced t.retry n ++ rests p) := by
  obtain ⟨h, y | r⟩ := p
  · rcases rests_eq (hp.2 y rfl) h with hrests | ⟨hleft, hrests⟩
    · exact ⟨n, hp.1, .inl (by rw [hrests, List.append_nil])⟩
    · exact ⟨n, hp.1, .inr ⟨hleft, by rw [hrests]⟩⟩
  · exact ⟨n, hp.1, .inl (List.append_nil _)⟩

/-- A turn that begins no try keeps the time. -/
theorem Steady.inTime {p : Hub × Progress Execution Result} (hp : x.Steady p.2)
    (hx : x.task = t) (hk : x.attempts = n + 1) (hd : x.delay = t.retry.delay n)
    (hn : n < t.limit) : ComesInTime t n p := by
  refine ⟨hn, fun y hy => ?_⟩
  obtain ⟨htask, hattempts, hdelay, hleft⟩ := hp y hy
  refine ⟨htask.trans hx, hattempts.trans hk, hdelay.trans hd, fun hphase => ?_⟩
  rw [← hk, ← hx]
  exact hleft hphase

/-- **A try begins.** -/
theorem tryOnce_inTime (hx : x.task = t) (hk : x.attempts = n) (hd : x.delay = t.retry.delay n)
    (hn : n < t.limit) : ComesInTime t n (x.tryOnce now h) :=
  Steady.inTime (x := { x with attempts := x.attempts + 1 }) (steady_afterGet _) hx
    (congrArg (· + 1) hk) hd hn

/-- **A command begins** that is admitted. -/
theorem start_inTime {id : CallId} {cancelled : Bool} (ha : h.admits t cancelled now = true) :
    ComesInTime t 0 (start id t cancelled now h) := by
  obtain ⟨hrefusal, hcircuit⟩ := Bool.and_eq_true_iff.mp ha
  have hlimit : 0 < t.limit := Nat.lt_of_lt_of_le Nat.zero_lt_one (Nat.le_max_left ..)
  unfold start
  cases hr : refusal t cancelled with
  | error f =>
    rw [hr] at hrefusal
    cases hrefusal
  | ok u =>
    generalize h.circuits.acquire t.target.host now = acquired at hcircuit ⊢
    obtain ⟨f | u, circuits⟩ := acquired
    · cases hcircuit
    · exact tryOnce_inTime rfl rfl rfl hlimit

/-- **A command goes on** with an answer that it may hear: it begins a retry if a pause is over, and
none otherwise. -/
theorem resume_inTime (hx : InTime t n x) (hn : n < t.limit) (ha : x.mayHear h a = true)
    (now : Instant) :
    ∃ m, ComesInTime t m (x.resume a now h) ∧
      paced t.retry m = paced t.retry n ++ rests (h, .waits x) ++ x.retries a := by
  by_cases hphase : x.phase = .backingOff
  · obtain ⟨caller, task, attempts, delay, phase⟩ := x
    obtain rfl : phase = .backingOff := hphase
    obtain ⟨htask, hattempts, hdelay, hleft⟩ := hx
    obtain rfl : task = t := htask
    obtain rfl : delay = task.retry.delay n := hdelay
    cases a with
    | done =>
      refine ⟨n + 1, tryOnce_inTime rfl hattempts rfl (hleft rfl), ?_⟩
      simp only [paced, rests, wait, retries, List.append_assoc, List.cons_append, List.nil_append]
    | _ => cases ha
  · refine ⟨n, (steady_resume hphase ha).inTime hx.task hx.attempts hx.delay hn, ?_⟩
    have hrests : rests (h, .waits x) = [] :=
      List.eq_nil_iff_forall_not_mem.mpr fun _ hb => hphase (backingOff_of_rests hb)
    have hretries : x.retries a = [] := by
      unfold retries
      split
      · next hp => exact absurd hp hphase
      · rfl
    rw [hrests, hretries, List.append_nil, List.append_nil]

end Execution

/-! ## Runs -/

namespace Hub

open Execution (Beat Rhythm Task paced rests)

namespace Traffic

variable {s t u : Traffic} {now : Instant} {e : Event} {id : CallId} {es : List (Instant × Event)}
  {task : Task} {cancelled : Bool} {x : Execution} {bs : List Beat} {n : Nat}

/-- The tries and pauses that a command begins in an event. -/
def beatsIn (s : Traffic) (id : CallId) (now : Instant) : Event → List Beat
  | .execute i t cancelled =>
    if i = id ∧ s.hub.admits t cancelled now = true then
      .tries :: rests (Execution.start id t cancelled now s.hub)
    else []
  | .answer i a =>
    if i = id then
      match s.calls.get? id with
      | some (.execution x) => x.retries a ++ rests (x.resume a now s.hub)
      | _ => []
    else []
  | _ => []

/-- **The tries and pauses that a command begins in a run.** -/
def beats (id : CallId) (s : Traffic) : List (Instant × Event) → List Beat
  | [] => []
  | (now, e) :: es => s.beatsIn id now e ++ (s.step now e).elim [] fun t => t.beats id es

theorem beats_cons (ht : s.step now e = some t) :
    s.beats id ((now, e) :: es) = s.beatsIn id now e ++ t.beats id es := by
  rw [beats, ht]
  rfl

/-- A command begins nothing in an event that is not about it. -/
theorem beatsIn_of_ne (s : Traffic) (now : Instant) (hid : e.call? ≠ some id) :
    s.beatsIn id now e = [] := by
  cases e with
  | execute i task cancelled => exact if_neg fun hi => hid (congrArg some hi.1)
  | answer i a => exact if_neg fun hi => hid (congrArg some hi)
  | _ => rfl

/-- A command that is over begins nothing more. -/
theorem Gone.beatsIn_eq (hgone : s.Gone id) (he : e.executes id = false) (now : Instant) :
    s.beatsIn id now e = [] := by
  by_cases hid : e.call? = some id
  · cases e with
    | execute i task cancelled =>
      cases hid
      simp [Event.executes] at he
    | answer i a =>
      cases hid
      rw [beatsIn, if_pos rfl]
      split
      · next x hx => exact absurd hx (hgone x)
      · rfl
    | _ => rfl
  · exact s.beatsIn_of_ne now hid

theorem Gone.beats_eq (hgone : s.Gone id) (hes : ∀ y ∈ es, y.2.executes id = false) :
    s.beats id es = [] := by
  induction es generalizing s with
  | nil => rfl
  | cons y es ih =>
    obtain ⟨now, e⟩ := y
    obtain ⟨he, hes⟩ := List.forall_mem_cons.mp hes
    cases ht : s.step now e with
    | none =>
      rw [beats, ht, hgone.beatsIn_eq he]
      rfl
    | some t =>
      rw [beats_cons ht, hgone.beatsIn_eq he]
      exact ih (hgone.step he ht) hes

/-- A turn, and whatever follows. -/
theorem rhythm_after {p : Hub × Progress Execution Execution.Result} (host : String)
    (admitted : Bool) (hp : Execution.ComesInTime task n p)
    (ih : ∀ x, (s.after id host admitted now p).calls.get? id = some (.execution x) →
      Execution.InTime task n x →
      Rhythm task (paced task.retry n ++ rests ((s.after id host admitted now p).hub, .waits x) ++
        (s.after id host admitted now p).beats id es))
    (hes : ∀ y ∈ es, y.2.executes id = false) :
    Rhythm task
      (paced task.retry n ++ rests p ++ (s.after id host admitted now p).beats id es) := by
  have hself := s.get?_after_self id host admitted now p
  have hturn := Execution.rhythm_of_comes hp
  obtain ⟨h, y | r⟩ := p
  · exact ih y hself (hp.2 y rfl)
  · have hgone : (s.after id host admitted now (h, .ends r)).Gone id := gone_of_get?_eq_none hself
    rw [hgone.beats_eq hes, List.append_nil]
    exact hturn

/-- A command that waits keeps to its rhythm in every run. -/
theorem rhythm_run (hx : s.calls.get? id = some (.execution x)) (ht : Execution.InTime task n x)
    (hn : n < task.limit) (hes : ∀ y ∈ es, y.2.executes id = false) (hrun : s.run es = some u) :
    Rhythm task (paced task.retry n ++ rests (s.hub, .waits x) ++ s.beats id es) := by
  induction es generalizing s x n with
  | nil =>
    rw [beats, List.append_nil]
    exact Execution.rhythm_of_comes (p := (s.hub, .waits x)) ⟨hn, fun _ hy => by cases hy; exact ht⟩
  | cons y es ih =>
    obtain ⟨now, e⟩ := y
    obtain ⟨t, hstep, hrun⟩ := Option.bind_eq_some_iff.mp hrun
    replace ⟨he, hes⟩ := List.forall_mem_cons.mp hes
    rw [beats_cons hstep]
    -- If the command is given up it begins nothing more.
    have hquits (hnone : t.calls.get? id = none) :
        Rhythm task
          (paced task.retry n ++ rests (s.hub, .waits x) ++ ([] ++ t.beats id es)) := by
      rw [(gone_of_get?_eq_none hnone).beats_eq hes, List.append_nil, List.append_nil]
      exact Execution.rhythm_of_comes (p := (s.hub, .waits x))
        ⟨hn, fun _ hy => by cases hy; exact ht⟩
    by_cases hid : e.call? = some id
    · cases happens hstep with
      | executes new =>
        cases hid
        simp [Event.executes] at he
      | orders new =>
        cases hid
        cases hx.symm.trans new
      | resumes call hears =>
        cases hid
        cases hx.symm.trans call
        obtain ⟨m, hcomes, hpaced⟩ := Execution.resume_inTime ht hn hears now
        rw [beatsIn, if_pos rfl, hx]
        dsimp only
        rw [← List.append_assoc, ← List.append_assoc, ← hpaced]
        exact rhythm_after _ _ hcomes (fun y hy ht => ih hy ht hcomes.1 hes hrun) hes
      | removes call hears =>
        cases hid
        cases hx.symm.trans call
      | cancels call =>
        cases hid
        exact hquits (Assoc.get?_erase_self ..)
      | abandons call =>
        cases hid
        exact hquits (Assoc.get?_erase_self ..)
      | resets host => cases hid
      | clears host => cases hid
    · rw [s.beatsIn_of_ne now hid]
      rw [List.nil_append, Execution.rests_waits x s.hub t.hub]
      exact ih ((get?_step_of_ne hstep hid).trans hx) ht hn hes hrun

/-! ## Commands -/

/-- **The pauses of a command.**  In every run, whatever is answered and whatever other calls do, a
command that was admitted pauses once before each retry, for the wait that comes after so many
waits, and not after the last try that it has.  No pause but the first is longer than the longest
wait, and each is nearly twice the one before it, up to the longest wait.  The pauses are what they
are meant to be, the first wait doubled so many times up to the longest one, if and only if the
first wait is not longer than the longest one and doubling does not round. -/
theorem paused_as_promised_iff (hgate : s.hub.admits task cancelled now = true)
    (hes : ∀ y ∈ es, y.2.executes id = false)
    (hrun : s.run ((now, .execute id task cancelled) :: es) = some u) :
    Rhythm task (s.beats id ((now, .execute id task cancelled) :: es)) ∧
      (∀ n, task.retry.delay (n + 1) ≤ task.retry.maxDelay ∧
        task.retry.NearTwice (task.retry.delay n) (task.retry.delay (n + 1))) ∧
      ((∀ n, task.retry.delay n = task.retry.promised n) ↔
        task.retry.retryDelay ≤ task.retry.maxDelay ∧ task.retry.Exact) := by
  refine ⟨?_, fun n => ⟨task.retry.delay_succ_le n, task.retry.delay_succ_near n⟩,
    RetrySettings.delay_eq_promised_iff⟩
  obtain ⟨t, hstep, hrun⟩ := Option.bind_eq_some_iff.mp hrun
  have hcomes : Execution.ComesInTime task 0 (Execution.start id task cancelled now s.hub) :=
    Execution.start_inTime hgate
  rw [beats_cons hstep, beatsIn, if_pos ⟨rfl, hgate⟩]
  cases happens hstep with
  | executes new =>
    exact rhythm_after _ _ hcomes (fun y hy ht => rhythm_run hy ht hcomes.1 hes hrun) hes

/-- The command whose connection broke once paused once, for as long as it was meant to. -/
theorem paused_of_brokenOnce :
    ∃ u, (idle (Settings.standard ⟨[]⟩)).run
        ((.start, .execute 0 (listing "u") false) :: brokenOnce) = some u ∧
      Rhythm (listing "u") [.tries, .pauses (.ofSecs 1), .tries] ∧
      ∀ n, (listing "u").retry.delay n = (listing "u").retry.promised n := by
  have hruns : ((idle (Settings.standard ⟨[]⟩)).run
      ((.start, .execute 0 (listing "u") false) :: brokenOnce)).isSome := by rfl
  obtain ⟨u, hu⟩ := Option.isSome_iff_exists.mp hruns
  have hbeats : (idle (Settings.standard ⟨[]⟩)).beats 0
      ((.start, .execute 0 (listing "u") false) :: brokenOnce) =
        [.tries, .pauses (.ofSecs 1), .tries] := by rfl
  obtain ⟨hrhythm, -, hpromised⟩ := paused_as_promised_iff (by rfl) (by decide) hu
  rw [hbeats] at hrhythm
  exact ⟨u, hu, hrhythm,
    hpromised.mpr ⟨by decide, RetrySettings.exact_of_secs (k := 1) rfl (by decide)⟩⟩

/-- A command with a first wait of two seconds and a longest wait of one. -/
def impetuous : Task :=
  ⟨⟨"a", 22, some "deploy", none, none⟩, "ls", .ofSecs 180, false, ⟨2, .ofSecs 2, .ofSecs 1⟩⟩

/-- The host cannot be reached at first. -/
def unreachedOnce : List (Instant × Event) :=
  [(⟨1⟩, .answer 0 (.connected (.error (.unreachable "a" "Connection refused")))),
    (⟨2⟩, .answer 0 .done), (⟨3⟩, .answer 0 (.connected (.ok 0))),
    (⟨4⟩, .answer 0 (.replied (.ok ⟨"done", "", 0⟩)))]

/-- **A first wait that is longer than the longest one is waited for in full**: the command pauses
for two seconds before its retry, where one second was meant. -/
theorem paused_beyond_longest :
    ((idle (Settings.standard ⟨[]⟩)).run
        ((.start, .execute 0 impetuous false) :: unreachedOnce)).isSome = true ∧
      (idle (Settings.standard ⟨[]⟩)).beats 0
          ((.start, .execute 0 impetuous false) :: unreachedOnce) =
        [.tries, .pauses (.ofSecs 2), .tries] ∧
      impetuous.retry.promised 0 = .ofSecs 1 ∧ impetuous.retry.maxDelay < .ofSecs 2 := by
  refine ⟨by rfl, by rfl, by decide, by decide⟩

end Traffic

end Hub

end RemoteShell
