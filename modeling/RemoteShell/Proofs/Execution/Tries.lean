import RemoteShell.Proofs.Elevation.Conduct
import RemoteShell.Proofs.Execution.Accounting

/-!
# The tries of a command

What a command that was admitted does until it ends: it makes one try after the other, as long as
they fail with transient faults and there are tries left.  A try looks for a connection and, if it
finds one, runs the command on it once.  The last try is the first one that succeeds, or fails with
a fault that is not transient, or is the last one that is allowed, and its outcome is the result,
unless a command that was denied is handed over to elevation.  Elevation runs the command at most
once more, and then nothing else.

Nothing is assumed about the pool, the engine or the other calls: in every turn the command finds
the hub in any state, and hears any answer that fits its wait.

## Main definitions

* `Deed`, `Traffic.deeds`: what a command does in a run
* `Try`, `Missed`, `Made`, `Course`: the form that this has
* `Stands`: what a command has done that waits

## Main results

* `resume_comes`, `start_comes`: one turn
* `course_of_admitted`: every run
-/

namespace RemoteShell

namespace Execution

open Elevation (Errand Climb Prudent)

/-! ## Deeds -/

/-- **What a command does.** -/
inductive Deed where
  -- The command is sent on a connection.
  | submits (c : ConnId)
  -- The outcome of a try: a reply to the command, or a fault before it or of it.
  | fares (o : Except Fault Reply)
  -- Elevation sends something on the connection on which the command was denied.
  | climbs (e : Errand)
  | ends (r : Result)

namespace Deed

/-- The command is sent. -/
def Submits : Deed → Prop
  | .submits _ => True
  | _ => False

/-- A try has succeeded, or it has failed for good. -/
def Permanent : Deed → Prop
  | .fares o => ∀ f, o = .error f → f.transient = false
  | _ => False

end Deed

/-- The errand of elevation that a command waits for. -/
def errand? (x : Execution) : Option Errand :=
  match x.phase with
  | .elevating _ climb => climb.errand?
  | _ => none

/-- What the search for a connection comes to: the command is sent on it, or the try has failed. -/
def found : Progress Pool.Get Pool.Get.Result → List Deed
  | .waits _ => []
  | .ends (.error f) => [.fares (.error f)]
  | .ends (.ok c) => [.submits c]

/-- What a turn comes to. -/
def comesTo : Progress Execution Result → List Deed
  | .waits y => (y.errand?.map Deed.climbs).toList
  | .ends r => [.ends r]

/-- What a command learns from an answer. -/
def learns (x : Execution) (a : Answer) (now : Instant) (h : Hub) : List Deed :=
  match x.phase, a with
  | .getting g, a => found (g.resume a now h.pool).2
  | .running _, .replied r => [.fares r]
  | .backingOff, .done => found (Pool.Get.start x.caller x.task.target now h.pool).2
  | _, _ => []

/-- What a command does when it goes on with an answer. -/
def does (x : Execution) (a : Answer) (now : Instant) (h : Hub) : List Deed :=
  x.learns a now h ++ comesTo (x.resume a now h).2

/-- What a command does when it begins. -/
def begins (id : CallId) (t : Task) (cancelled : Bool) (now : Instant) (h : Hub) : List Deed :=
  found (Pool.Get.start id t.target now h.pool).2 ++ comesTo (start id t cancelled now h).2

/-! ## The form of what is done -/

/-- The number of tries that a command has. -/
def Task.limit (t : Task) : Nat := max 1 t.retry.maxRetries

/-- **A try** with its outcome: no connection was found, or the command was sent on one, once. -/
inductive Try : Except Fault Reply → List Deed → Prop
  | unconnected (f : Fault) : Try (.error f) [.fares (.error f)]
  | sent (c : ConnId) (o : Except Fault Reply) : Try o [.submits c, .fares o]

/-- **Tries that failed**, each with a transient fault. -/
inductive Missed : Nat → List Deed → Prop
  | none : Missed 0 []
  | more {n : Nat} {ds ws : List Deed} {f : Fault} (earlier : Missed n ds)
      (last : Try (.error f) ws) (transient : f.transient = true) : Missed (n + 1) (ds ++ ws)

/-- So many tries were made: all but the last one failed with transient faults. -/
def Tried (t : Task) (k : Nat) (o : Except Fault Reply) (ds : List Deed) : Prop :=
  ∃ n missed last, k = n + 1 ∧ n < t.limit ∧ ds = missed ++ last ∧ Missed n missed ∧ Try o last

/-- **All tries were made**: the last one succeeded, or failed with a fault that is not transient,
or there are no tries left. -/
structure Made (t : Task) (k : Nat) (o : Except Fault Reply) (ds : List Deed) : Prop where
  tried : Tried t k o ds
  spent : ∀ f, o = .error f → f.transient = true → k = t.limit

/-- **A command is handed over to elevation**: it was denied, and elevation was asked for. -/
def HandsOver (t : Task) (o : Except Fault Reply) : Prop :=
  t.elevate = true ∧ ∃ r, o = .ok r ∧ Elevation.denied r = true

/-- **The result of a command**: the outcome of the last try, with the number of tries, if it is not
handed over; else whatever elevation comes to. -/
inductive Results (t : Task) (k : Nat) (o : Except Fault Reply) : List Errand → Result → Prop
  | returned (stays : ¬ HandsOver t o) :
      Results t k o [] (.finished (o.map fun r => ⟨r, none, k⟩))
  | elevated {es : List Errand} {r : Result} (handed : HandsOver t o)
      (prudent : Prudent t.command t.timeout es)
      (counted : ∀ out, r = .finished (.ok out) → out.attempts = k) : Results t k o es r

/-- **The course of a command**, as far as it has come. -/
inductive Course (t : Task) : List Deed → Prop
  -- Some tries have failed, and there is another one.
  | trying {n : Nat} {ds : List Deed} (missed : Missed n ds) (left : n < t.limit) : Course t ds
  | sending {n : Nat} {ds : List Deed} (c : ConnId) (missed : Missed n ds) (left : n < t.limit) :
      Course t (ds ++ [.submits c])
  -- All tries were made, and the command may be with elevation.
  | made {k : Nat} {o : Except Fault Reply} {ds : List Deed} {es : List Errand}
      (tries : Made t k o ds) (handed : es ≠ [] → HandsOver t o)
      (prudent : Prudent t.command t.timeout es) : Course t (ds ++ es.map .climbs)
  | ended {k : Nat} {o : Except Fault Reply} {ds : List Deed} {es : List Errand} {r : Result}
      (tries : Made t k o ds) (result : Results t k o es r) :
      Course t (ds ++ es.map .climbs ++ [.ends r])

variable {t : Task} {x y : Execution} {ds tries : List Deed} {es : List Errand} {f : Fault}
  {k n : Nat} {o : Except Fault Reply} {c : ConnId} {h : Hub} {now : Instant} {r : Reply}
  {a : Answer} {told : Fault → Prop}

/-! ## Waits -/

/-- **What a command has done that waits.** -/
def Stands (t : Task) (x : Execution) (ds : List Deed) : Prop :=
  x.task = t ∧
    match x.phase with
    | .getting _ => ∃ n, x.attempts = n + 1 ∧ n < t.limit ∧ Missed n ds
    | .running c => ∃ n missed, x.attempts = n + 1 ∧ n < t.limit ∧ Missed n missed ∧
        ds = missed ++ [.submits c]
    | .discarding _ f => f.transient = true ∧ Tried t x.attempts (.error f) ds
    | .backingOff => x.attempts < t.limit ∧ Missed x.attempts ds
    | .elevating _ climb => climb.command = t.command ∧ climb.timeout = t.timeout ∧
        ∃ r tries es, HandsOver t (.ok r) ∧ Made t x.attempts (.ok r) tries ∧ climb.Conducts es ∧
          ds = tries ++ es.map .climbs
    | .dropping .. => ∃ r tries es, HandsOver t (.ok r) ∧ Made t x.attempts (.ok r) tries ∧
        Prudent t.command t.timeout es ∧ ds = tries ++ es.map .climbs

/-- What a command has done that has ended. -/
def Over (t : Task) (r : Result) (ds : List Deed) : Prop :=
  ∃ k o tries es, Made t k o tries ∧ Results t k o es r ∧ ds = tries ++ es.map .climbs

/-- What a command has done that has come to a wait or to its end. -/
def Comes (t : Task) (ds : List Deed) : Progress Execution Result → Prop
  | .waits y => Stands t y (ds ++ comesTo (.waits y))
  | .ends r => Over t r ds

theorem made_ok (ht : Tried t k (.ok r) ds) : Made t k (.ok r) ds := ⟨ht, nofun⟩

/-- At least one try was made, and no more than a command has. -/
theorem Tried.bounds (ht : Tried t k o ds) : 1 ≤ k ∧ k ≤ t.limit := by
  obtain ⟨n, -, -, rfl, hn, -⟩ := ht
  exact ⟨Nat.le_add_left 1 n, hn⟩

theorem not_handsOver_error (t : Task) (f : Fault) : ¬ HandsOver t (.error f) := by
  rintro ⟨-, r, hr, -⟩
  cases hr

theorem prudent_nil (t : Task) : Prudent t.command t.timeout [] :=
  Elevation.prudent_of_forall (List.forall_mem_nil _)

/-- What was done by a command that waits has the form of a course. -/
theorem Stands.course (hs : Stands t x ds) : Course t ds := by
  obtain ⟨-, hs⟩ := hs
  cases hphase : x.phase with
  | getting g =>
    rw [hphase] at hs
    obtain ⟨n, -, hn, hm⟩ := hs
    exact .trying hm hn
  | running c =>
    rw [hphase] at hs
    obtain ⟨n, missed, -, hn, hm, rfl⟩ := hs
    exact .sending c hm hn
  | discarding r f =>
    rw [hphase] at hs
    obtain ⟨hf, ht⟩ := hs
    -- Either there is another try, or this was the last one.
    by_cases hlast : x.attempts < t.limit
    · obtain ⟨n, missed, last, hk, -, rfl, hm, hl⟩ := ht
      rw [hk] at hlast
      exact .trying (hm.more hl hf) hlast
    · have hmade : Made t x.attempts (.error f) ds :=
        ⟨ht, fun _ _ _ => Nat.le_antisymm ht.bounds.2 (Nat.le_of_not_lt hlast)⟩
      have hcourse : Course t (ds ++ [].map Deed.climbs) :=
        .made hmade (fun hne => absurd rfl hne) (prudent_nil t)
      simpa using hcourse
  | backingOff =>
    rw [hphase] at hs
    exact .trying hs.2 hs.1
  | elevating c climb =>
    rw [hphase] at hs
    obtain ⟨hcommand, htimeout, r, tries, es, hover, hmade, hclimb, rfl⟩ := hs
    have hprudent := hclimb.prudent
    rw [hcommand, htimeout] at hprudent
    exact .made hmade (fun _ => hover) hprudent
  | dropping r f =>
    rw [hphase] at hs
    obtain ⟨r, tries, es, hover, hmade, hprudent, rfl⟩ := hs
    exact .made hmade (fun _ => hover) hprudent

/-! ## Turns -/

/-- The command ends with the outcome of the last try. -/
theorem over_of_made (hm : Made t k o ds) (hstays : ¬ HandsOver t o) :
    Over t (.finished (o.map fun r => ⟨r, none, k⟩)) ds :=
  ⟨k, o, ds, [], hm, .returned hstays, by simp⟩

/-- A try has failed. -/
theorem retry_comes (hx : x.task = t) (ht : Tried t x.attempts (.error f) ds) :
    Comes t ds (x.retry f now h).2 := by
  unfold retry
  obtain ⟨n, missed, last, hk, hn, rfl, hm, hl⟩ := ht
  split
  · next hagain =>
    obtain ⟨hf, hleft⟩ := Bool.and_eq_true_iff.mp hagain
    have hleft : x.attempts < x.task.retry.maxRetries := of_decide_eq_true hleft
    rw [hx] at hleft
    refine ⟨hx, ?_⟩
    have hmissed : Missed x.attempts (missed ++ last ++ []) := by
      rw [List.append_nil, hk]
      exact hm.more hl hf
    exact ⟨Nat.lt_of_lt_of_le hleft (Nat.le_max_right ..), hmissed⟩
  · next hlast =>
    refine over_of_made (o := .error f) (k := x.attempts)
      ⟨⟨n, missed, last, hk, hn, rfl, hm, hl⟩, ?_⟩ (not_handsOver_error t f)
    -- A transient fault is the last one only when no tries are left.
    intro g hg hgt
    cases hg
    have hspent : ¬ x.attempts < x.task.retry.maxRetries := fun hleft =>
      hlast (by rw [hgt, decide_eq_true hleft]; rfl)
    rw [hx] at hspent
    have hlimit : t.limit = max 1 t.retry.maxRetries := rfl
    omega

/-- A command on a connection has failed. -/
theorem discard_comes (hx : x.task = t) (ht : Tried t x.attempts (.error f) ds) :
    Comes t ds (x.discard c f now h).2 := by
  unfold discard
  split
  · next hf =>
    split
    · refine ⟨hx, hf, ?_⟩
      simpa [comesTo, errand?] using ht
    · exact retry_comes hx ht
  · exact retry_comes hx ht

/-- Elevation has failed. -/
theorem drop_comes (hx : x.task = t) (hover : HandsOver t (.ok r))
    (hm : Made t x.attempts (.ok r) tries) (hp : Prudent t.command t.timeout es) :
    Comes t (tries ++ es.map .climbs) (x.drop c f now h).2 := by
  have hends : Over t (.finished (.error f)) (tries ++ es.map .climbs) :=
    ⟨_, _, tries, es, hm, .elevated hover hp nofun, rfl⟩
  unfold drop
  split
  · split
    · refine ⟨hx, r, tries, es, hover, hm, hp, ?_⟩
      simp [comesTo, errand?]
    · exact hends
  · exact hends

/-- A step of the search for a connection. -/
theorem afterGet_comes {p : Hub × Progress Pool.Get Pool.Get.Result} (hx : x.task = t)
    (hk : x.attempts = n + 1) (hn : n < t.limit) (hm : Missed n ds) :
    Comes t (ds ++ found p.2) (x.afterGet now p).2 := by
  obtain ⟨h, g | f | c⟩ := p
  · refine ⟨hx, n, hk, hn, ?_⟩
    simpa [comesTo, errand?, found] using hm
  · exact retry_comes hx ⟨n, ds, _, hk, hn, rfl, hm, .unconnected f⟩
  · exact ⟨hx, n, ds, hk, hn, hm, by simp [comesTo, errand?, found]⟩

theorem tryOnce_comes (hx : x.task = t) (hn : x.attempts < t.limit) (hm : Missed x.attempts ds) :
    Comes t (ds ++ found (Pool.Get.start x.caller x.task.target now h.pool).2)
      (x.tryOnce now h).2 := by
  let p := h.onPool (Pool.Get.start x.caller x.task.target now)
  change Comes t (ds ++ found p.2) (afterGet { x with attempts := x.attempts + 1 } now p).2
  exact afterGet_comes hx rfl hn hm

/-- A step of elevation. -/
theorem afterClimb_comes {p : Hub × Progress Climb Climb.Result} {climb : Climb}
    {e : Elevation.Engine} (c : ConnId) (now : Instant)
    (hx : x.task = t) (hover : HandsOver t (.ok r)) (hm : Made t x.attempts (.ok r) tries)
    (hcommand : climb.command = t.command) (htimeout : climb.timeout = t.timeout)
    (hb : climb.Behaves es told (e, p.2)) :
    Comes t (tries ++ es.map .climbs) (x.afterClimb c now p).2 := by
  have hp := hb.prudent
  rw [hcommand, htimeout] at hp
  obtain ⟨h, d | (f | out) | _⟩ := p
  · obtain ⟨hdcommand, hdtimeout, hd⟩ := hb.waits d rfl
    refine ⟨hx, hdcommand.trans hcommand, hdtimeout.trans htimeout, r, tries, _, hover, hm, hd, ?_⟩
    cases hsent : d.errand? <;> simp [comesTo, errand?, hsent]
  · exact drop_comes hx hover hm hp
  · refine ⟨_, _, tries, es, hm, .elevated hover hp fun out hout => ?_, rfl⟩
    cases hout
    rfl
  · exact ⟨_, _, tries, es, hm, .elevated hover hp nofun, rfl⟩

theorem elevation_touch (h : Hub) (c : Option ConnId) (now : Instant) :
    (h.touch c now).elevation = h.elevation := by
  cases c <;> rfl

/-- The command was run. -/
theorem afterReply_comes {key : Login} (hx : x.task = t) (ht : Tried t x.attempts (.ok r) ds) :
    Comes t ds (x.afterReply c key r now h).2 := by
  unfold afterReply
  split
  · next hdenied =>
    obtain ⟨helevate, hdenied⟩ := Bool.and_eq_true_iff.mp hdenied
    have hstart := Climb.conducts_start x.caller key x.task.command x.task.timeout (some c)
      h.elevation
    have hcomes := afterClimb_comes (p := h.onElevation
        (Climb.start x.caller key x.task.command x.task.timeout (some c)))
      c now hx ⟨hx ▸ helevate, r, rfl, hdenied⟩ (made_ok ht) (hx ▸ rfl) (hx ▸ rfl) hstart
    simpa using hcomes
  · next hstays =>
    refine over_of_made (made_ok ht) ?_
    rintro ⟨helevate, r', hr', hdenied⟩
    cases hr'
    exact hstays (by rw [hx, helevate, hdenied]; rfl)

/-- **A command goes on** with an answer that it may hear. -/
theorem resume_comes (hs : Stands t x ds) (ha : x.mayHear h a = true) (now : Instant) :
    Comes t (ds ++ x.learns a now h) (x.resume a now h).2 := by
  obtain ⟨hx, hs⟩ := hs
  obtain ⟨caller, task, attempts, delay, phase⟩ := x
  cases phase with
  | getting g =>
    obtain ⟨n, hk, hn, hm⟩ := hs
    exact afterGet_comes hx hk hn hm
  | running c =>
    obtain ⟨n, missed, hk, hn, hm, rfl⟩ := hs
    cases a with
    | replied o =>
      have ht : Tried t attempts o (missed ++ [.submits c] ++ [.fares o]) :=
        ⟨n, missed, _, hk, hn, by simp, hm, .sent c o⟩
      cases o with
      | error f =>
        change Comes t (missed ++ [.submits c] ++ [.fares (.error f)]) (discard _ c f now _).2
        exact discard_comes hx ht
      | ok r =>
        change Comes t (missed ++ [.submits c] ++ [.fares (.ok r)]) (afterReply _ c _ r now _).2
        exact afterReply_comes hx ht
    | _ => cases ha
  | discarding r f =>
    obtain ⟨hf, ht⟩ := hs
    change Comes t (ds ++ []) _
    rw [List.append_nil]
    unfold resume
    dsimp only
    split
    · refine ⟨hx, hf, ?_⟩
      simpa [comesTo, errand?] using ht
    · exact retry_comes hx ht
  | backingOff =>
    obtain ⟨hn, hm⟩ := hs
    cases a with
    | done =>
      let x : Execution := ⟨caller, task, attempts, nextDelay task.retry delay, .backingOff⟩
      change Comes t (ds ++ found (Pool.Get.start x.caller x.task.target now h.pool).2)
        (x.tryOnce now h).2
      exact tryOnce_comes hx hn hm
    | _ => cases ha
  | elevating c climb =>
    obtain ⟨hcommand, htimeout, r, tries, es, hover, hm, hclimb, rfl⟩ := hs
    change Comes t (tries ++ es.map .climbs ++ []) _
    rw [List.append_nil]
    have hbehaves := hclimb.resume ha
    rw [← elevation_touch h climb.running? now] at hbehaves
    exact afterClimb_comes c now hx hover hm hcommand htimeout hbehaves
  | dropping r f =>
    obtain ⟨r', tries, es, hover, hm, hp, rfl⟩ := hs
    change Comes t (tries ++ es.map .climbs ++ []) _
    rw [List.append_nil]
    unfold resume
    dsimp only
    split
    · refine ⟨hx, r', tries, es, hover, hm, hp, ?_⟩
      simp [comesTo, errand?]
    · exact ⟨_, _, tries, es, hm, .elevated hover hp nofun, rfl⟩

/-- **A command begins** that is admitted. -/
theorem start_comes {id : CallId} {cancelled : Bool} (ha : h.admits t cancelled now = true) :
    Comes t (found (Pool.Get.start id t.target now h.pool).2) (start id t cancelled now h).2 := by
  obtain ⟨hrefusal, hcircuit⟩ := Bool.and_eq_true_iff.mp ha
  have hlimit : 0 < t.limit := Nat.lt_of_lt_of_le Nat.zero_lt_one (Nat.le_max_left ..)
  unfold start
  cases hr : refusal t cancelled with
  | error f =>
    rw [hr] at hrefusal
    cases hrefusal
  | ok u =>
    generalize h.circuits.acquire t.target.host now = acquired at hcircuit ⊢
    obtain ⟨f | u, circuits⟩ := acquired
    · cases hcircuit
    · let x : Execution := ⟨id, t, 0, t.retry.retryDelay, .backingOff⟩
      change Comes t ([] ++ found (Pool.Get.start x.caller x.task.target now h.pool).2)
        (x.tryOnce now { h with circuits := circuits }).2
      exact tryOnce_comes rfl hlimit .none

/-- What has come to a wait or to its end has the form of a course. -/
theorem Comes.course {p : Progress Execution Result} (hp : Comes t ds p) :
    Course t (ds ++ comesTo p) := by
  cases p with
  | waits y => exact Stands.course hp
  | ends r =>
    obtain ⟨k, o, tries, es, hm, hr, rfl⟩ := hp
    exact .ended hm hr

/-! ## After the last try -/

theorem Try.not_permanent {ws : List Deed} (hw : Try (.error f) ws) (hf : f.transient = true) :
    ∀ d ∈ ws, ¬ d.Permanent := by
  have hfares : ¬ (Deed.fares (.error f)).Permanent := fun hp => by
    have := hp f rfl
    rw [hf] at this
    cases this
  cases hw with
  | unconnected => simpa using hfares
  | sent c => simpa [Deed.Permanent] using hfares

theorem Missed.not_permanent (hm : Missed n ds) : ∀ d ∈ ds, ¬ d.Permanent := by
  induction hm with
  | none => exact List.forall_mem_nil _
  | more earlier last transient ih =>
    intro d hd
    rcases List.mem_append.mp hd with hd | hd
    · exact ih d hd
    · exact last.not_permanent transient d hd

/-- Before the last outcome nothing is permanent. -/
theorem pairwise_of_not_permanent {R : Deed → Prop} (hds : ∀ d ∈ ds, ¬ d.Permanent) :
    ds.Pairwise fun d d' => d.Permanent → R d' :=
  List.pairwise_of_forall_mem_list fun d hd _ _ hp => absurd hp (hds d hd)

theorem Tried.pairwise (ht : Tried t k o ds) :
    ds.Pairwise fun d d' => d.Permanent → ¬ d'.Submits := by
  obtain ⟨n, missed, last, -, -, rfl, hm, hl⟩ := ht
  refine List.pairwise_append.mpr ⟨pairwise_of_not_permanent hm.not_permanent, ?_,
    fun d hd _ _ hp => absurd hp (hm.not_permanent d hd)⟩
  cases hl with
  | unconnected f => exact List.pairwise_singleton ..
  | sent c o => simp [Deed.Permanent]

/-- What comes after the tries sends the command no more on behalf of them. -/
theorem pairwise_append_of_not_submits {es : List Deed}
    (hds : ds.Pairwise fun d d' => d.Permanent → ¬ d'.Submits) (hes : ∀ d ∈ es, ¬ d.Submits) :
    (ds ++ es).Pairwise fun d d' => d.Permanent → ¬ d'.Submits :=
  List.pairwise_append.mpr ⟨hds, List.pairwise_of_forall_mem_list fun _ _ d hd _ => hes d hd,
    fun _ _ d hd _ => hes d hd⟩

/-- **After a try that succeeded or failed for good the command is not sent again.** -/
theorem Course.pairwise (hc : Course t ds) :
    ds.Pairwise fun d d' => d.Permanent → ¬ d'.Submits := by
  have hclimbs (es : List Errand) : ∀ d ∈ es.map Deed.climbs, ¬ d.Submits := by
    intro d hd
    obtain ⟨e, -, rfl⟩ := List.mem_map.mp hd
    exact id
  cases hc with
  | trying missed left => exact pairwise_of_not_permanent missed.not_permanent
  | sending c missed left =>
    refine pairwise_of_not_permanent fun d hd => ?_
    rcases List.mem_append.mp hd with hd | hd
    · exact missed.not_permanent d hd
    · exact List.mem_singleton.mp hd ▸ id
  | made tries handed prudent =>
    exact pairwise_append_of_not_submits tries.tried.pairwise (hclimbs _)
  | ended tries result =>
    refine pairwise_append_of_not_submits
      (pairwise_append_of_not_submits tries.tried.pairwise (hclimbs _)) fun d hd => ?_
    exact List.mem_singleton.mp hd ▸ id

end Execution

/-! ## Runs -/

namespace Hub

open Execution (Deed Stands Comes Course)

namespace Traffic

variable {s t u : Traffic} {now : Instant} {e : Event} {id : CallId} {es : List (Instant × Event)}
  {task : Execution.Task} {cancelled : Bool} {x : Execution} {ds : List Deed}

/-- What a command does in an event. -/
def deedsIn (s : Traffic) (id : CallId) (now : Instant) : Event → List Deed
  | .execute i t cancelled =>
    if i = id ∧ s.hub.admits t cancelled now = true then
      Execution.begins id t cancelled now s.hub
    else []
  | .answer i a =>
    if i = id then
      match s.calls.get? id with
      | some (.execution x) => x.does a now s.hub
      | _ => []
    else []
  | _ => []

/-- **What a command does in a run.** -/
def deeds (id : CallId) (s : Traffic) : List (Instant × Event) → List Deed
  | [] => []
  | (now, e) :: es => s.deedsIn id now e ++ (s.step now e).elim [] fun t => t.deeds id es

theorem deeds_cons (ht : s.step now e = some t) :
    s.deeds id ((now, e) :: es) = s.deedsIn id now e ++ t.deeds id es := by
  rw [deeds, ht]
  rfl

/-- An event leaves all other calls as they are. -/
theorem get?_step_of_ne (h : s.step now e = some t) (hid : e.call? ≠ some id) :
    t.calls.get? id = s.calls.get? id := by
  have hne {i : CallId} (hi : e.call? = some i) : id ≠ i := fun heq => hid (heq ▸ hi)
  cases happens h with
  | executes new => exact s.get?_after_of_ne (hne rfl) ..
  | orders new => exact s.get?_afterRemoval_of_ne (hne rfl) _
  | resumes call hears => exact s.get?_after_of_ne (hne rfl) ..
  | removes call hears => exact s.get?_afterRemoval_of_ne (hne rfl) _
  | cancels call => exact (s.orphan _).get?_after_of_ne (hne rfl) ..
  | abandons call => exact Assoc.get?_erase_of_ne _ (hne rfl)
  | resets host => rfl
  | clears host => rfl

/-- A command does something in an event only when it begins or goes on. -/
theorem begins_or_does_of_mem_deedsIn {d : Deed} (hd : d ∈ s.deedsIn id now e) :
    (∃ task cancelled, e = .execute id task cancelled ∧
      s.hub.admits task cancelled now = true ∧ d ∈ Execution.begins id task cancelled now s.hub) ∨
    ∃ x a, e = .answer id a ∧ s.calls.get? id = some (.execution x) ∧
      d ∈ x.does a now s.hub := by
  cases e with
  | execute i task cancelled =>
    by_cases hi : i = id ∧ s.hub.admits task cancelled now = true
    · rw [deedsIn, if_pos hi] at hd
      obtain ⟨rfl, hadmits⟩ := hi
      exact .inl ⟨task, cancelled, rfl, hadmits, hd⟩
    · rw [deedsIn, if_neg hi] at hd
      cases hd
  | answer i a =>
    by_cases hi : i = id
    · subst hi
      rw [deedsIn, if_pos rfl] at hd
      split at hd
      · next x hx => exact .inr ⟨x, a, rfl, hx, hd⟩
      · cases hd
    · rw [deedsIn, if_neg hi] at hd
      cases hd
  | _ => cases hd

/-- A command does nothing in an event that is not about it. -/
theorem deedsIn_of_ne (s : Traffic) (now : Instant) (hid : e.call? ≠ some id) :
    s.deedsIn id now e = [] := by
  cases e with
  | execute i task cancelled => exact if_neg fun hi => hid (congrArg some hi.1)
  | answer i a => exact if_neg fun hi => hid (congrArg some hi)
  | _ => rfl

/-- No command is under way under a number. -/
def Gone (s : Traffic) (id : CallId) : Prop := ∀ x, s.calls.get? id ≠ some (.execution x)

theorem gone_of_get?_eq_none (h : s.calls.get? id = none) : s.Gone id := by
  intro x hx
  rw [h] at hx
  cases hx

theorem gone_afterRemoval (s : Traffic) (id : CallId) (p : Hub × Progress Pool.Removal Nat) :
    (s.afterRemoval id p).Gone id := by
  intro x hx
  obtain ⟨h, r | n⟩ := p
  · cases (Assoc.get?_put_self ..).symm.trans hx
  · cases (Assoc.get?_erase_self ..).symm.trans hx

/-- A command that is over stays so until its number is used for another one. -/
theorem Gone.step (hgone : s.Gone id) (he : e.executes id = false) (ht : s.step now e = some t) :
    t.Gone id := by
  by_cases hid : e.call? = some id
  · cases happens ht with
    | executes new =>
      cases hid
      simp [Event.executes] at he
    | orders new =>
      cases hid
      exact s.gone_afterRemoval id _
    | resumes call hears =>
      cases hid
      exact absurd call (hgone _)
    | removes call hears =>
      cases hid
      exact s.gone_afterRemoval id _
    | cancels call =>
      cases hid
      exact absurd call (hgone _)
    | abandons call =>
      cases hid
      exact gone_of_get?_eq_none (Assoc.get?_erase_self ..)
    | resets host => cases hid
    | clears host => cases hid
  · intro x hx
    exact hgone x ((get?_step_of_ne ht hid).symm.trans hx)

theorem Gone.deedsIn_eq (hgone : s.Gone id) (he : e.executes id = false) (now : Instant) :
    s.deedsIn id now e = [] := by
  by_cases hid : e.call? = some id
  · cases e with
    | execute i task cancelled =>
      cases hid
      simp [Event.executes] at he
    | answer i a =>
      cases hid
      rw [deedsIn, if_pos rfl]
      split
      · next x hx => exact absurd hx (hgone x)
      · rfl
    | _ => rfl
  · exact s.deedsIn_of_ne now hid

/-- A command that is over does nothing more. -/
theorem Gone.deeds_eq (hgone : s.Gone id) (hes : ∀ y ∈ es, y.2.executes id = false) :
    s.deeds id es = [] := by
  induction es generalizing s with
  | nil => rfl
  | cons y es ih =>
    obtain ⟨now, e⟩ := y
    obtain ⟨he, hes⟩ := List.forall_mem_cons.mp hes
    cases ht : s.step now e with
    | none =>
      rw [deeds, ht, hgone.deedsIn_eq he]
      rfl
    | some t =>
      rw [deeds_cons ht, hgone.deedsIn_eq he]
      exact ih (hgone.step he ht) hes

/-- What becomes of a command at the end of a turn. -/
theorem get?_after_self (s : Traffic) (id : CallId) (host : String) (admitted : Bool)
    (now : Instant) (p : Hub × Progress Execution Execution.Result) :
    (s.after id host admitted now p).calls.get? id =
      match p.2 with
      | .waits y => some (.execution y)
      | .ends _ => none := by
  obtain ⟨h, y | r⟩ := p
  · exact Assoc.get?_put_self ..
  · exact Assoc.get?_erase_self ..

theorem hub_after (s : Traffic) (id : CallId) (host : String) (admitted : Bool) (now : Instant)
    (p : Hub × Progress Execution Execution.Result) :
    (s.after id host admitted now p).hub = p.1 := by
  obtain ⟨h, y | r⟩ := p <;> rfl

/-- A command that is under way after its turn has come to a wait. -/
theorem waits_of_after {p : Hub × Progress Execution Execution.Result} {host : String}
    {admitted : Bool}
    (hx : (s.after id host admitted now p).calls.get? id = some (.execution x)) :
    p.2 = .waits x := by
  rw [get?_after_self] at hx
  obtain ⟨h, y | r⟩ := p
  · cases hx
    rfl
  · cases hx

/-- **How a command comes to wait** in an event that is about it: it has begun, or gone on. -/
theorem waits_of_step (hs : s.step now e = some t) (hid : e.call? = some id)
    (hx : t.calls.get? id = some (.execution x)) :
    (∃ task cancelled, e = .execute id task cancelled ∧
      Execution.start id task cancelled now s.hub = (t.hub, .waits x)) ∨
    ∃ y a, e = .answer id a ∧ s.calls.get? id = some (.execution y) ∧
      y.mayHear s.hub a = true ∧ y.resume a now s.hub = (t.hub, .waits x) := by
  cases happens hs with
  | executes new =>
    cases hid
    exact .inl ⟨_, _, rfl, Prod.ext (hub_after ..).symm (waits_of_after hx)⟩
  | orders new =>
    cases hid
    exact absurd hx (s.gone_afterRemoval id _ x)
  | resumes call hears =>
    cases hid
    exact .inr ⟨_, _, rfl, call, hears, Prod.ext (hub_after ..).symm (waits_of_after hx)⟩
  | removes call hears =>
    cases hid
    exact absurd hx (s.gone_afterRemoval id _ x)
  | cancels call =>
    cases hid
    cases (Assoc.get?_erase_self ..).symm.trans hx
  | abandons call =>
    cases hid
    cases (Assoc.get?_erase_self ..).symm.trans hx
  | resets host => cases hid
  | clears host => cases hid

/-- A turn, and whatever follows. -/
theorem course_after {p : Hub × Progress Execution Execution.Result} (host : String)
    (admitted : Bool) (hp : Comes task ds p.2)
    (ih : ∀ x ds, (s.after id host admitted now p).calls.get? id = some (.execution x) →
      Stands task x ds → Course task (ds ++ (s.after id host admitted now p).deeds id es))
    (hes : ∀ y ∈ es, y.2.executes id = false) :
    Course task (ds ++ Execution.comesTo p.2 ++ (s.after id host admitted now p).deeds id es) := by
  have hself := s.get?_after_self id host admitted now p
  obtain ⟨h, y | r⟩ := p
  · exact ih y _ hself hp
  · have hgone : (s.after id host admitted now (h, .ends r)).Gone id := gone_of_get?_eq_none hself
    rw [hgone.deeds_eq hes, List.append_nil]
    exact hp.course

/-- A command that waits keeps to its course in every run. -/
theorem course_run (hx : s.calls.get? id = some (.execution x)) (hs : Stands task x ds)
    (hes : ∀ y ∈ es, y.2.executes id = false) (hrun : s.run es = some u) :
    Course task (ds ++ s.deeds id es) := by
  induction es generalizing s x ds with
  | nil =>
    rw [deeds, List.append_nil]
    exact hs.course
  | cons y es ih =>
    obtain ⟨now, e⟩ := y
    obtain ⟨t, ht, hrun⟩ := Option.bind_eq_some_iff.mp hrun
    replace ⟨he, hes⟩ := List.forall_mem_cons.mp hes
    rw [deeds_cons ht]
    -- If the command is given up it does nothing more.
    have hquits (hnone : t.calls.get? id = none) : Course task (ds ++ ([] ++ t.deeds id es)) := by
      rw [(gone_of_get?_eq_none hnone).deeds_eq hes, List.append_nil, List.append_nil]
      exact hs.course
    by_cases hid : e.call? = some id
    · cases happens ht with
      | executes new =>
        cases hid
        simp [Event.executes] at he
      | orders new =>
        cases hid
        cases hx.symm.trans new
      | resumes call hears =>
        cases hid
        cases hx.symm.trans call
        rw [deedsIn, if_pos rfl, hx]
        dsimp only
        rw [Execution.does, ← List.append_assoc, ← List.append_assoc]
        exact course_after _ _ (Execution.resume_comes hs hears now)
          (fun y ds hy hs => ih hy hs hes hrun) hes
      | removes call hears =>
        cases hid
        cases hx.symm.trans call
      | cancels call =>
        cases hid
        exact hquits (Assoc.get?_erase_self ..)
      | abandons call =>
        cases hid
        exact hquits (Assoc.get?_erase_self ..)
      | resets host => cases hid
      | clears host => cases hid
    · rw [s.deedsIn_of_ne now hid]
      exact ih ((get?_step_of_ne ht hid).trans hx) hs hes hrun

/-! ## Results -/

theorem mem_journal_step {n : Note} (h : s.step now e = some t) (hn : n ∈ s.journal) :
    n ∈ t.journal := by
  have hafter (id : CallId) (host : String) (admitted : Bool)
      (p : Hub × Progress Execution Execution.Result) :
      n ∈ (s.after id host admitted now p).journal := by
    obtain ⟨h, y | r⟩ := p
    · exact hn
    · exact List.mem_cons_of_mem _ hn
  have hremoval (id : CallId) (p : Hub × Progress Pool.Removal Nat) :
      n ∈ (s.afterRemoval id p).journal := by
    obtain ⟨h, r | m⟩ := p <;> exact hn
  cases happens h with
  | executes new => exact hafter ..
  | orders new => exact hremoval ..
  | resumes call hears => exact hafter ..
  | removes call hears => exact hremoval ..
  | cancels call => exact List.mem_cons_of_mem _ hn
  | abandons call => exact hn
  | resets host => exact List.mem_cons_of_mem _ hn
  | clears host => exact hn

/-- A turn that ends is noted. -/
theorem noted_after {r : Execution.Result} (host : String)
    {p : Hub × Progress Execution Execution.Result} (hp : .ends r ∈ Execution.comesTo p.2) :
    .ended id host true r now ∈ (s.after id host true now p).journal := by
  obtain ⟨h, y | r'⟩ := p
  · simp [Execution.comesTo] at hp
  · obtain rfl : r = r' := Deed.ends.inj (List.mem_singleton.mp hp)
    exact List.mem_cons_self

theorem noted_of_mem_deedsIn {r : Execution.Result} (hs : s.step now e = some t)
    (hr : .ends r ∈ s.deedsIn id now e) : ∃ host, .ended id host true r now ∈ t.journal := by
  have hfound (q : Progress Pool.Get Pool.Get.Result) : .ends r ∉ Execution.found q := by
    obtain g | f | c := q <;> simp [Execution.found]
  rcases begins_or_does_of_mem_deedsIn hr with
    ⟨task, cancelled, rfl, hadmits, hr⟩ | ⟨x, a, rfl, hx, hr⟩
  · cases happens hs with
    | executes new =>
      rw [hadmits]
      exact ⟨_, noted_after _ ((List.mem_append.mp hr).resolve_left (hfound _))⟩
  · have hlearns : .ends r ∉ x.learns a now s.hub := by
      unfold Execution.learns
      split
      · exact hfound _
      · simp
      · exact hfound _
      · simp
    obtain ⟨-, rfl⟩ := after_of_answer hx hs
    exact ⟨_, noted_after _ ((List.mem_append.mp hr).resolve_left hlearns)⟩

/-- The result of a command is noted. -/
theorem noted_of_mem_deeds {r : Execution.Result} (hrun : s.run es = some u)
    (hr : .ends r ∈ s.deeds id es) : ∃ host now, .ended id host true r now ∈ u.journal := by
  induction es generalizing s with
  | nil => cases hr
  | cons y es ih =>
    obtain ⟨now, e⟩ := y
    obtain ⟨t, ht, hrun⟩ := Option.bind_eq_some_iff.mp hrun
    rw [deeds_cons ht] at hr
    rcases List.mem_append.mp hr with hr | hr
    · obtain ⟨host, hnote⟩ := noted_of_mem_deedsIn ht hr
      have hlater {es : List (Instant × Event)} {t : Traffic} (hrun : t.run es = some u)
          (hnote : Note.ended id host true r now ∈ t.journal) :
          Note.ended id host true r now ∈ u.journal := by
        induction es generalizing t with
        | nil => exact Option.some.inj hrun ▸ hnote
        | cons z es ih =>
          obtain ⟨v, hv, hrun⟩ := Option.bind_eq_some_iff.mp hrun
          exact ih hrun (mem_journal_step hv hnote)
      exact ⟨host, now, hlater hrun hnote⟩
    · exact ih hrun hr

/-! ## Commands -/

/-- **The tries of a command.**  In every run, whatever is answered and whatever other calls do, a
command that was admitted keeps to its course: it makes at least one try and at most as many as it
has, all but the last one failed with transient faults, and the last one succeeded, or failed with a
fault that is not transient, or left no tries; each try sends the command at most once.  The result
is the outcome of the last try with the number of tries, unless the command was denied and is handed
over to elevation, which sends it at most once more, and nothing after it.  After a try that
succeeded or failed for good the command is not sent again for a try, and the result is noted. -/
theorem course_of_admitted (hgate : s.hub.admits task cancelled now = true)
    (hes : ∀ y ∈ es, y.2.executes id = false)
    (hrun : s.run ((now, .execute id task cancelled) :: es) = some u) :
    Course task (s.deeds id ((now, .execute id task cancelled) :: es)) ∧
      (s.deeds id ((now, .execute id task cancelled) :: es)).Pairwise
        (fun d d' => d.Permanent → ¬ d'.Submits) ∧
      ∀ r, .ends r ∈ s.deeds id ((now, .execute id task cancelled) :: es) →
        ∃ host now, .ended id host true r now ∈ u.journal := by
  suffices hcourse : Course task (s.deeds id ((now, .execute id task cancelled) :: es)) from
    ⟨hcourse, hcourse.pairwise, fun r => noted_of_mem_deeds hrun⟩
  obtain ⟨t, ht, hrun⟩ := Option.bind_eq_some_iff.mp hrun
  rw [deeds_cons ht, deedsIn, if_pos ⟨rfl, hgate⟩, Execution.begins]
  cases happens ht with
  | executes new =>
    exact course_after _ _ (Execution.start_comes hgate)
      (fun x ds hx hs => course_run hx hs hes hrun) hes

/-- The connection of a command breaks, and the second try succeeds. -/
def brokenOnce : List (Instant × Event) :=
  [(⟨1⟩, .answer 0 (.connected (.ok 0))),
    (⟨2⟩, .answer 0 (.replied (.error (.connectionLost "a" "reset")))),
    (⟨3⟩, .answer 0 (.closed 0)), (⟨4⟩, .answer 0 .done), (⟨5⟩, .answer 0 (.connected (.ok 1))),
    (⟨6⟩, .answer 0 (.replied (.ok ⟨"x", "", 0⟩)))]

/-- The command was sent on two connections, and its result says that there were two tries. -/
theorem course_of_brokenOnce :
    ∃ u, (idle (Settings.standard ⟨[]⟩)).run
        ((.start, .execute 0 (listing "u") false) :: brokenOnce) = some u ∧
      Course (listing "u") [.submits 0, .fares (.error (.connectionLost "a" "reset")), .submits 1,
        .fares (.ok ⟨"x", "", 0⟩), .ends (.finished (.ok ⟨⟨"x", "", 0⟩, none, 2⟩))] ∧
      ∃ host now, .ended 0 host true (.finished (.ok ⟨⟨"x", "", 0⟩, none, 2⟩)) now ∈ u.journal := by
  have hruns : ((idle (Settings.standard ⟨[]⟩)).run
      ((.start, .execute 0 (listing "u") false) :: brokenOnce)).isSome := by rfl
  obtain ⟨u, hu⟩ := Option.isSome_iff_exists.mp hruns
  have hdeeds : (idle (Settings.standard ⟨[]⟩)).deeds 0
      ((.start, .execute 0 (listing "u") false) :: brokenOnce) =
        [.submits 0, .fares (.error (.connectionLost "a" "reset")), .submits 1,
          .fares (.ok ⟨"x", "", 0⟩), .ends (.finished (.ok ⟨⟨"x", "", 0⟩, none, 2⟩))] := by rfl
  have hcourse := course_of_admitted (by rfl) (by decide) hu
  rw [hdeeds] at hcourse
  exact ⟨u, hu, hcourse.1, hcourse.2.2 _ (by simp)⟩

end Traffic

end Hub

end RemoteShell
