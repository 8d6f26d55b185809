import RemoteShell.Proofs.Execution.Reuse
import RemoteShell.Proofs.Pool.Idleness

/-!
# Idle connections

A connection is used when it is opened, and whenever a command on it starts or comes to its end, be
it one that was asked for or one of elevation.  A sweep, or a search that has found the connection,
takes it out as idle if and only if all these uses are longer ago than the settings allow, counted
from whole milliseconds after the opening.

So a connection counts as idle although a command runs on it, once the command has taken longer than
that: the next sweep closes the connection under the command.  And a command that is cancelled does
not come to its end: the connection counts as idle since the command started.

## Main definitions

* `Execution.runs?`: the connection on which something of a command runs
* `Traffic.uses`: the uses of a connection in a run
* `Traffic.Inspects`: an event inspects a connection for idleness

## Main results

* `notes_step`: what the pool knows of the uses in an event
* `taken_as_idle_iff`: when a connection is taken out as idle
* `busy_taken_as_idle`: it may be, while a command runs on it
-/

namespace RemoteShell

open Pool (Get Notes)

namespace Execution

variable {x y : Execution} {h h' : Hub} {c : ConnId} {f : Fault} {now : Instant} {a : Answer}
  {cs cs' ds ds' : List ConnId} {r : Hub × Progress Execution Result} {g g' : Get}

/-! ## Uses in a turn -/

/-- The connection on which something of a command runs right now. -/
def runs? (x : Execution) : Option ConnId :=
  match x.phase with
  | .running c => some c
  | .elevating _ climb => climb.running?
  | _ => none

/-- The connection on which something of a command runs after a turn. -/
def runsOf : Progress Execution Result → Option ConnId
  | .waits y => y.runs?
  | .ends _ => none

/-- **A turn uses connections**: some on the way, and the one on which something runs after it; and
it opens others. -/
def Uses (now : Instant) (h : Hub) (cs ds : List ConnId) (r : Hub × Progress Execution Result) :
    Prop :=
  h.pool.Notes now (cs ++ (runsOf r.2).toList) ds r.1.pool

theorem Uses.after (hn : h.pool.Notes now cs ds h'.pool) (hu : Uses now h' cs' ds' r) :
    Uses now h (cs ++ cs') (ds ++ ds') r := by
  have hnotes := hn.trans hu
  rw [← List.append_assoc] at hnotes
  exact hnotes

theorem notes_touch (h : Hub) (o : Option ConnId) (now : Instant) :
    h.pool.Notes now o.toList [] (h.touch o now).pool := by
  cases o with
  | none => exact .refl h.pool now
  | some c => exact .touch h.pool c now

theorem uses_finish (x : Execution) (r : Except Fault Outcome) (now : Instant) (h : Hub) :
    Uses now h [] [] (x.finish r now h) := by
  unfold Uses
  rw [pool_finish]
  exact .refl h.pool now

theorem uses_retry (x : Execution) (f : Fault) (now : Instant) (h : Hub) :
    Uses now h [] [] (x.retry f now h) := by
  unfold retry
  split
  · exact Notes.refl h.pool now
  · exact x.uses_finish _ now h

/-- A removal comes to its next wait, or the command goes on in some way. -/
theorem uses_removal (x : Execution) (φ : Pool.Removal → Phase)
    {p : Hub × Progress Pool.Removal Nat} {k : Hub → Hub × Progress Execution Result}
    (hφ : ∀ r, runs? { x with phase := φ r } = none) (hk : ∀ h, Uses now h [] [] (k h)) :
    h.pool.Notes now [] [] p.1.pool →
      Uses now h [] []
        (match p with
          | (h, .waits r) => x.goOn (φ r) h
          | (h, .ends _) => k h) := by
  intro hp
  obtain ⟨h', r | n⟩ := p
  · dsimp only [goOn, Uses, runsOf]
    rw [hφ r]
    exact hp
  · exact .after hp (hk h')

theorem uses_discard (x : Execution) (c : ConnId) (f : Fault) (now : Instant) (h : Hub) :
    Uses now h [] [] (x.discard c f now h) := by
  have hp : h.pool.Notes now [] [] (h.onPool (Pool.Removal.invalidate c)).1.pool :=
    Pool.Order.notes_start (.one c) now h.pool
  unfold discard
  split
  · exact x.uses_removal (.discarding · f) (fun _ => rfl) (x.uses_retry f now) hp
  · exact x.uses_retry f now h

theorem uses_drop (x : Execution) (c : ConnId) (f : Fault) (now : Instant) (h : Hub) :
    Uses now h [] [] (x.drop c f now h) := by
  have hp : h.pool.Notes now [] [] (h.onPool (Pool.Removal.invalidate c)).1.pool :=
    Pool.Order.notes_start (.one c) now h.pool
  unfold drop
  split
  · exact x.uses_removal (.dropping · f) (fun _ => rfl) (x.uses_finish _ now) hp
  · exact x.uses_finish _ now h

/-- A search notes a use only when it ends with the connection, and then the command starts
there. -/
theorem uses_afterGet {p : Hub × Progress Get Get.Result} (hp : h.pool.Notes now cs ds p.1.pool)
    (hcs : ∀ c ∈ cs, p.2 = .ends (.ok c)) : Uses now h [] ds (x.afterGet now p) := by
  have hnil (hne : ∀ c, p.2 ≠ .ends (.ok c)) : cs = [] :=
    List.eq_nil_iff_forall_not_mem.mpr fun c hc => hne c (hcs c hc)
  obtain ⟨h', g | f | c⟩ := p
  · obtain rfl := hnil nofun
    exact hp
  · obtain rfl := hnil nofun
    have huses : Uses now h [] (ds ++ []) (x.retry f now h') := .after hp (x.uses_retry f now h')
    rwa [List.append_nil] at huses
  · have hnotes := hp.trans (Notes.touch h'.pool c now)
    rw [List.append_nil] at hnotes
    refine hnotes.congr fun d => ?_
    rw [List.mem_append]
    refine or_iff_right_of_imp fun hd => ?_
    obtain rfl : c = d := by
      cases hcs d hd
      rfl
    exact List.mem_singleton_self c

theorem uses_tryOnce (x : Execution) (now : Instant) (h : Hub) :
    Uses now h [] [] (x.tryOnce now h) :=
  uses_afterGet (Get.notes_start x.caller x.task.target now h.pool) (List.forall_mem_nil _)

/-- Elevation uses the connection as often as it runs something there. -/
theorem uses_afterClimb (x : Execution) (c : ConnId) (now : Instant)
    (p : Hub × Progress Elevation.Climb Elevation.Climb.Result) :
    Uses now p.1 [] [] (x.afterClimb c now p) := by
  obtain ⟨h, climb | (f | e) | _⟩ := p
  · exact notes_touch h climb.running? now
  · exact x.uses_drop c f now h
  · exact x.uses_finish _ now h
  · exact Notes.refl h.pool now

theorem uses_afterReply (x : Execution) (c : ConnId) (key : Login) (r : Reply) (now : Instant)
    (h : Hub) : Uses now h [] [] (x.afterReply c key r now h) := by
  unfold afterReply
  split
  · exact x.uses_afterClimb c now (h.onElevation _)
  · exact x.uses_finish _ now h

/-- **A command that goes on** uses the connection on which something of it has run, and the one on
which something of it runs then. -/
theorem uses_resume (ha : x.mayHear h a = true) (now : Instant) :
    Uses now h x.runs?.toList a.delivered?.toList (x.resume a now h) := by
  obtain ⟨caller, task, attempts, delay, phase⟩ := x
  cases phase with
  | getting g =>
    obtain ⟨cs, hnotes, hcs⟩ := Get.notes_resume ha now
    exact uses_afterGet hnotes hcs
  | running c =>
    cases a with
    | replied r =>
      have htouch := notes_touch h (some c) now
      cases r with
      | error f => exact .after htouch (uses_discard _ c f now _)
      | ok r => exact .after htouch (uses_afterReply _ c _ r now _)
    | _ => cases ha
  | discarding r f =>
    have hclosed : a.delivered? = none := by
      cases a with
      | closed c => rfl
      | _ => cases ha
    have hp : h.pool.Notes now [] [] (h.onPool (r.resume a)).1.pool := r.notes_resume a now h.pool
    rw [hclosed]
    exact uses_removal _ (.discarding · f) (fun _ => rfl) (uses_retry _ f now) hp
  | backingOff =>
    cases a with
    | done => exact uses_tryOnce ⟨caller, task, attempts, _, .backingOff⟩ now h
    | _ => cases ha
  | elevating c climb =>
    rw [(Elevation.Climb.plain_of_mayHear ha).1]
    have huses := Uses.after (notes_touch h climb.running? now)
      (uses_afterClimb ⟨caller, task, attempts, delay, .elevating c climb⟩ c now
        ((h.touch climb.running? now).onElevation (climb.resume a)))
    rw [List.append_nil] at huses
    exact huses
  | dropping r f =>
    have hclosed : a.delivered? = none := by
      cases a with
      | closed c => rfl
      | _ => cases ha
    have hp : h.pool.Notes now [] [] (h.onPool (r.resume a)).1.pool := r.notes_resume a now h.pool
    rw [hclosed]
    exact uses_removal _ (.dropping · f) (fun _ => rfl) (uses_finish _ _ now) hp

theorem uses_start (id : CallId) (t : Task) (cancelled : Bool) (now : Instant) (h : Hub) :
    Uses now h [] [] (start id t cancelled now h) := by
  unfold start
  cases refusal t cancelled with
  | error f => exact Notes.refl h.pool now
  | ok u =>
    dsimp only
    obtain ⟨f | u, circuits⟩ := h.circuits.acquire t.target.host now
    · exact Notes.refl h.pool now
    · exact uses_tryOnce ⟨id, t, 0, t.retry.retryDelay, .backingOff⟩ now
        { h with circuits := circuits }

theorem notes_abandon (x : Execution) (now : Instant) (h : Hub) :
    h.pool.Notes now [] [] (x.abandon h).pool := by
  unfold abandon
  split
  · exact .of_entries_eq rfl rfl
  · exact .refl h.pool now
  · exact .refl h.pool now

/-- A new connection has no record. -/
theorem new_of_delivered (ha : x.mayHear h a = true) (hc : a.delivered? = some c) :
    c ∉ h.pool.ids := by
  have hconnected : a = .connected (.ok c) := by
    unfold Answer.delivered? at hc
    split at hc <;> cases hc
    rfl
  subst hconnected
  obtain ⟨caller, task, attempts, delay, phase⟩ := x
  cases phase with
  | getting g => exact Get.new_of_mayHear ha
  | elevating d climb => cases (Elevation.Climb.plain_of_mayHear ha).1
  | discarding r f => cases ha
  | dropping r f => cases ha
  | running d => cases ha
  | backingOff => cases ha

/-! ## Searches that have found a connection -/

theorem getting_of_afterGet {p : Hub × Progress Get Get.Result}
    (hy : (x.afterGet now p).2 = .waits y) (hg : y.phase = .getting g) :
    p.2 = .waits g ∧ (x.afterGet now p).1 = p.1 := by
  obtain ⟨h', g' | f | c⟩ := p
  · cases hy
    cases hg
    exact ⟨rfl, rfl⟩
  · exact absurd hg (x.elsewhere_retry f now h' y g hy)
  · cases hy
    cases hg

theorem elsewhere_drop (x : Execution) (c : ConnId) (f : Fault) (now : Instant) (h : Hub) :
    Elsewhere (x.drop c f now h).2 := by
  unfold drop
  split
  · split
    · rintro _ g ⟨⟩
      exact nofun
    · exact elsewhere_ends _
  · exact elsewhere_ends _

theorem elsewhere_afterClimb (x : Execution) (c : ConnId) (now : Instant)
    (p : Hub × Progress Elevation.Climb Elevation.Climb.Result) :
    Elsewhere (x.afterClimb c now p).2 := by
  obtain ⟨h, climb | (f | e) | _⟩ := p
  · rintro _ g ⟨⟩
    exact nofun
  · exact x.elsewhere_drop c f now h
  · exact elsewhere_ends _
  · exact elsewhere_ends _

theorem elsewhere_afterReply (x : Execution) (c : ConnId) (key : Login) (r : Reply)
    (now : Instant) (h : Hub) : Elsewhere (x.afterReply c key r now h).2 := by
  unfold afterReply
  split
  · exact x.elsewhere_afterClimb c now _
  · exact elsewhere_ends _

/-- **A command that looks for a connection** after a turn goes on with its search or begins one. -/
theorem getting_of_resume (ha : x.mayHear h a = true) (hy : (x.resume a now h).2 = .waits y)
    (hg : y.phase = .getting g') :
    (∃ g, x.phase = .getting g ∧ (g.resume a now h.pool).2 = .waits g' ∧
      (x.resume a now h).1.pool = (g.resume a now h.pool).1) ∨
    x.phase = .backingOff ∧ (Get.start x.caller x.task.target now h.pool).2 = .waits g' ∧
      (x.resume a now h).1.pool = (Get.start x.caller x.task.target now h.pool).1 := by
  obtain ⟨caller, task, attempts, delay, phase⟩ := x
  cases phase with
  | getting g =>
    obtain ⟨hwaits, hhub⟩ := getting_of_afterGet hy hg
    exact .inl ⟨g, rfl, hwaits, congrArg Hub.pool hhub⟩
  | running c =>
    cases a with
    | replied r =>
      cases r with
      | error f => exact absurd hg (elsewhere_discard _ c f now _ y g' hy)
      | ok r => exact absurd hg (elsewhere_afterReply _ c _ r now _ y g' hy)
    | _ => cases ha
  | discarding r f =>
    unfold resume at hy
    dsimp only at hy
    split at hy
    · cases hy
      cases hg
    · exact absurd hg (elsewhere_retry _ f now _ y g' hy)
  | backingOff =>
    cases a with
    | done =>
      obtain ⟨hwaits, hhub⟩ := getting_of_afterGet hy hg
      exact .inr ⟨rfl, hwaits, congrArg Hub.pool hhub⟩
    | _ => cases ha
  | elevating c climb =>
    exact absurd hg (elsewhere_afterClimb _ c now _ y g' hy)
  | dropping r f =>
    unfold resume at hy
    dsimp only at hy
    split at hy
    · cases hy
      cases hg
    · cases hy

theorem getting_of_start {id : CallId} {t : Task} {cancelled : Bool}
    (hy : (start id t cancelled now h).2 = .waits y) (hg : y.phase = .getting g) :
    (Get.start id t.target now h.pool).2 = .waits g ∧
      (start id t cancelled now h).1.pool = (Get.start id t.target now h.pool).1 := by
  unfold start at hy ⊢
  cases hr : refusal t cancelled with
  | error f =>
    rw [hr] at hy
    cases hy
  | ok u =>
    rw [hr] at hy
    generalize h.circuits.acquire t.target.host now = acquired at hy ⊢
    obtain ⟨f | u, circuits⟩ := acquired
    · cases hy
    · obtain ⟨hwaits, hhub⟩ := getting_of_afterGet hy hg
      exact ⟨hwaits, congrArg Hub.pool hhub⟩

end Execution

namespace Hub

/-- The call whose turn comes with an event. -/
def Event.turn? : Event → Option CallId
  | .execute id .. | .answer id _ => some id
  | _ => none

namespace Traffic

variable {s t : Traffic} {now : Instant} {e : Event} {id : CallId} {c : ConnId}
  {es : List (Instant × Event)} {settings : Settings} {walk : Pool.Walk}

/-! ## Uses in an event -/

/-- The connection on which something of a command runs. -/
def runs? (s : Traffic) (id : CallId) : Option ConnId :=
  match s.calls.get? id with
  | some (.execution x) => x.runs?
  | _ => none

/-- **The connections that are used in an event**: what ran on them has come to its end, or
something starts there. -/
def usedIn (s t : Traffic) (e : Event) : List ConnId :=
  match e.turn? with
  | some id => (s.runs? id).toList ++ (t.runs? id).toList
  | none => []

theorem runs?_after (s : Traffic) (id : CallId) (host : String) (admitted : Bool) (now : Instant)
    (p : Hub × Progress Execution Execution.Result) :
    (s.after id host admitted now p).runs? id = Execution.runsOf p.2 := by
  rw [runs?, get?_after_self]
  obtain ⟨h, y | r⟩ := p <;> rfl

theorem runs?_of_gone (h : s.Gone id) : s.runs? id = none := by
  unfold runs?
  split
  · next x hx => exact absurd hx (h x)
  · rfl

theorem hub_afterRemoval (s : Traffic) (id : CallId) (p : Hub × Progress Pool.Removal Nat) :
    (s.afterRemoval id p).hub = p.1 := by
  obtain ⟨h, r | n⟩ := p <;> rfl

/-- **What the pool knows of the uses in an event.** -/
theorem notes_step (hs : s.step now e = some t) :
    s.hub.pool.Notes now (s.usedIn t e) e.delivered?.toList t.hub.pool := by
  cases happens hs with
  | @executes id task cancelled new =>
    have hnone : s.runs? id = none := runs?_of_gone (gone_of_get?_eq_none new)
    have huses := Execution.uses_start id task cancelled now s.hub
    rw [hub_after]
    dsimp only [usedIn, Event.turn?]
    rw [hnone, runs?_after]
    exact huses
  | @orders id o new =>
    rw [hub_afterRemoval]
    exact o.notes_start now s.hub.pool
  | @resumes id a x call hears =>
    have huses := Execution.uses_resume hears now
    have hruns : s.runs? id = x.runs? := by rw [runs?, call]
    rw [hub_after]
    dsimp only [usedIn, Event.turn?]
    rw [hruns, runs?_after]
    exact huses
  | @removes id a r call hears =>
    have hbefore : s.runs? id = none := by rw [runs?, call]
    have hafter : (s.afterRemoval id (s.hub.onPool (r.resume a))).runs? id = none :=
      runs?_of_gone (s.gone_afterRemoval id _)
    have hdelivered : a.delivered? = none := by
      cases a with
      | closed c => rfl
      | _ => cases hears
    dsimp only [usedIn, Event.turn?, Event.delivered?, Event.answer?]
    rw [hub_afterRemoval, hbefore, hafter, Option.bind_some, hdelivered]
    exact r.notes_resume a now s.hub.pool
  | @cancels id x call => exact x.notes_abandon now s.hub
  | @abandons id c call =>
    cases c with
    | execution x => exact x.notes_abandon now s.hub
    | removal r => exact .refl s.hub.pool now
  | resets host => exact .refl s.hub.pool now
  | clears host => exact .refl s.hub.pool now

theorem new_of_delivered (hs : s.step now e = some t) (hc : e.delivered? = some c) :
    c ∉ s.hub.pool.ids := by
  cases happens hs with
  | resumes call hears => exact Execution.new_of_delivered hears hc
  | @removes id a r call hears =>
    cases a with
    | closed d => cases hc
    | _ => cases hears
  | _ => cases hc

/-! ## Uses in a run -/

/-- The uses of a connection after an event, the latest first: it is opened, or used once more. -/
def usesAfter (s t : Traffic) (now : Instant) (e : Event) (c : ConnId) (us : List Instant) :
    List Instant :=
  if e.delivered? = some c then [now] else if c ∈ s.usedIn t e then now :: us else us

/-- **The uses of a connection** after a run, the latest first, if `us` are those before it. -/
def uses (c : ConnId) (s : Traffic) (us : List Instant) : List (Instant × Event) → List Instant
  | [] => us
  | (now, e) :: es => (s.step now e).elim us fun t => t.uses c (s.usesAfter t now e c us) es

/-- The records of a pool are dated by uses, and have the timeout of the settings. -/
structure Dated (settings : Settings) (s : Traffic) (us : ConnId → List Instant) : Prop where
  same : s.hub.pool.settings = settings.pool
  timeouts : ∀ e ∈ s.hub.pool.entries, e.idleTimeout = settings.pool.idleTimeout
  dated : ∀ e ∈ s.hub.pool.entries, e.DatedBy (us e.id)

theorem Dated.step {us : ConnId → List Instant} (hd : Dated settings s us)
    (hs : s.step now e = some t) :
    Dated settings t fun c => s.usesAfter t now e c (us c) := by
  have hnotes := notes_step hs
  have hrecord {r : Pool.Entry} (hr : r ∈ t.hub.pool.entries) :
      r.idleTimeout = settings.pool.idleTimeout ∧
        r.DatedBy (s.usesAfter t now e r.id (us r.id)) := by
    rcases hnotes.record hr with ⟨r₀, hr₀, hdates⟩ | hfresh
    · have hid : r.id = r₀.id := (congrArg Pool.Entry.id hdates).trans (r₀.dates.noted_id ..)
      have hnew : e.delivered? ≠ some r.id := fun hc =>
        new_of_delivered hs hc (Pool.mem_ids.mpr ⟨r₀, hr₀, hid.symm⟩)
      have htimeout : r.idleTimeout = r₀.idleTimeout :=
        (congrArg Pool.Entry.idleTimeout hdates).trans (r₀.dates.noted_idleTimeout ..)
      refine ⟨htimeout.trans (hd.timeouts r₀ hr₀), .of_dates ?_⟩
      rw [hdates, usesAfter, if_neg hnew, hid, Pool.Entry.noted]
      have hdated : r₀.dates.DatedBy (us r₀.id) := (hd.dated r₀ hr₀).dates
      by_cases hused : r₀.id ∈ s.usedIn t e
      · rw [if_pos hused, if_pos (show r₀.dates.id ∈ s.usedIn t e from hused)]
        exact hdated.touch now
      · rw [if_neg hused, if_neg (show r₀.dates.id ∉ s.usedIn t e from hused)]
        exact hdated
    · have hopened : e.delivered? = some r.id := Option.mem_toList.mp hfresh.opened
      refine ⟨hfresh.idleTimeout.trans (congrArg _ hd.same), .of_dates ?_⟩
      rw [usesAfter, if_pos hopened]
      exact hfresh.datedBy
  exact ⟨hnotes.settings.trans hd.same, fun r hr => (hrecord hr).1, fun r hr => (hrecord hr).2⟩

theorem Dated.run {us : ConnId → List Instant} (hd : Dated settings s us) (hs : s.run es = some t) :
    Dated settings t fun c => s.uses c (us c) es := by
  induction es generalizing s us with
  | nil => exact Option.some.inj hs ▸ hd
  | cons y es ih =>
    obtain ⟨now, e⟩ := y
    obtain ⟨u, hu, hs⟩ := Option.bind_eq_some_iff.mp hs
    have hrun := ih (hd.step hu) hs
    have hcons (c : ConnId) :
        s.uses c (us c) ((now, e) :: es) = u.uses c (s.usesAfter u now e c (us c)) es := by
      rw [uses, hu]
      rfl
    simpa only [hcons] using hrun

theorem dated_idle (settings : Settings) (walk : Pool.Walk) :
    Dated settings (idle settings walk) fun _ => [] :=
  ⟨rfl, nofun, nofun⟩

/-! ## Inspections -/

/-- The search of a command waits for something. -/
def Searches (s : Traffic) (id : CallId) (phase : Get.Phase) : Prop :=
  ∃ x g, s.calls.get? id = some (.execution x) ∧ x.phase = .getting g ∧ g.phase = phase

/-- **An event inspects a connection** for idleness: it is a sweep, or a search has found the
connection and asks it for a sign of life or replaces it. -/
def Inspects (s t : Traffic) (e : Event) (c : ConnId) : Prop :=
  (∃ id, e = .order id .expired) ∨
    ∃ id, e.call? = some id ∧ ¬ s.Searches id (.probing c) ∧
      (t.Searches id (.probing c) ∨ t.Searches id (.replacing c))

theorem inspected_step (hm : s.Mirrored) (hs : s.step now e = some t) (hi : s.Inspects t e c) :
    s.hub.pool.Inspected now c t.hub.pool := by
  rcases hi with ⟨id, rfl⟩ | ⟨id, hid, hprobing, hfound⟩
  · cases happens hs with
    | orders new =>
      rw [hub_afterRemoval]
      exact Pool.inspected_expired hm.tidy now c
  · obtain ⟨y, g, hy, hg, hphase⟩ : ∃ y g, t.calls.get? id = some (.execution y) ∧
        y.phase = .getting g ∧ g.HasFound c := by
      rcases hfound with ⟨y, g, hy, hg, hphase⟩ | ⟨y, g, hy, hg, hphase⟩
      · exact ⟨y, g, hy, hg, .inl hphase⟩
      · exact ⟨y, g, hy, hg, .inr hphase⟩
    rcases waits_of_step hs hid hy with
      ⟨task, cancelled, -, hstart⟩ | ⟨x, a, -, hx, hmay, hresume⟩
    · obtain ⟨hwaits, hpool⟩ := Execution.getting_of_start (congrArg Prod.snd hstart) hg
      rw [hstart] at hpool
      rw [hpool]
      exact Get.start_inspects hm.tidy hwaits hphase
    · obtain ⟨g₀, hg₀, hwaits, hpool⟩ | ⟨-, hwaits, hpool⟩ :=
        Execution.getting_of_resume hmay (congrArg Prod.snd hresume) hg
      · rw [hresume] at hpool
        rw [hpool]
        obtain ⟨caller, task, attempts, delay, phase⟩ := x
        obtain rfl : phase = .getting g₀ := hg₀
        exact Get.resume_inspects hm.tidy hmay (fun hg => hprobing ⟨_, g₀, hx, rfl, hg⟩) hwaits
          hphase
      · rw [hresume] at hpool
        rw [hpool]
        exact Get.start_inspects hm.tidy hwaits hphase

/-- **When a connection is taken out as idle.**  In every run, an inspection takes a connection out
of the pool if and only if more than the idle timeout has passed since each of its uses: since it
was opened, and since every start and every end of a command on it, counted from whole milliseconds
after the opening.  A command that runs is not a use in itself. -/
theorem taken_as_idle_iff (h : (idle settings walk).run es = some s) (hs : s.step now e = some t)
    {r : Pool.Entry} (hr : r ∈ s.hub.pool.pooled) (hi : s.Inspects t e r.id) :
    t.hub.pool.holds r.id = false ↔
      ∀ u ∈ (idle settings walk).uses r.id [] es,
        settings.pool.idleTimeout < now.since (r.noticed u) := by
  have hd := (dated_idle settings walk).run h
  have hmem := (Pool.mem_pooled.mp hr).1
  rw [inspected_step (mirrored_and_standing h).1 hs hi r hr rfl, (hd.dated r hmem).expired_iff,
    hd.timeouts r hmem]

/-- A hub whose connections are idle after a second. -/
def impatient : Settings := { Settings.standard ⟨[]⟩ with pool := ⟨50, .ofSecs 1, .ofSecs 30⟩ }

/-- A command starts at once, and comes to its end after five seconds. -/
def slowCommand : List (Instant × Event) :=
  [(.start, .execute 0 (listing "u") false), (.start, .answer 0 (.connected (.ok 0))),
    (⟨5000000000⟩, .answer 0 (.replied (.ok ⟨"x", "", 0⟩)))]

/-- Half a second after the end of the command the connection stays, and after two seconds it is
taken out. -/
theorem taken_as_idle_after_slowCommand :
    ∃ s t u, (idle impatient).run slowCommand = some s ∧
      s.step ⟨5500000000⟩ (.order 1 .expired) = some t ∧ t.hub.pool.holds 0 = true ∧
      s.step ⟨7000000000⟩ (.order 1 .expired) = some u ∧ u.hub.pool.holds 0 = false := by
  obtain ⟨s, t, u, r, hs, ht, hu, hr, hid, hcreated, huses⟩ :
      ∃ s t u r, (idle impatient).run slowCommand = some s ∧
        s.step ⟨5500000000⟩ (.order 1 .expired) = some t ∧
        s.step ⟨7000000000⟩ (.order 1 .expired) = some u ∧ s.hub.pool.pooled = [r] ∧
        r.id = 0 ∧ r.created = .start ∧
        (idle impatient).uses 0 [] slowCommand = [⟨5000000000⟩, .start] :=
    ⟨_, _, _, _, rfl, rfl, rfl, rfl, rfl, rfl, rfl⟩
  have hpooled : r ∈ s.hub.pool.pooled := hr ▸ List.mem_singleton_self r
  have htaken := taken_as_idle_iff hs ht hpooled (.inl ⟨1, rfl⟩)
  have htaken' := taken_as_idle_iff hs hu hpooled (.inl ⟨1, rfl⟩)
  rw [hid, huses] at htaken htaken'
  simp only [List.forall_mem_cons, Pool.Entry.noticed, hcreated] at htaken htaken'
  refine ⟨s, t, u, hs, ht, ?_, hu, htaken'.mpr (by decide)⟩
  exact eq_true_of_ne_false fun hout => absurd (htaken.mp hout).1 (by decide)

/-- **A connection is taken out as idle while a command runs on it**: the command has run for two
seconds when a sweep comes, and the connection was not used since the command started. -/
theorem busy_taken_as_idle :
    ∃ s t, (idle impatient).run (slowCommand.take 2) = some s ∧ s.hub.pool.holds 0 = true ∧
      s.step ⟨2000000000⟩ (.order 1 .expired) = some t ∧ t.runs? 0 = some 0 ∧
      t.hub.pool.holds 0 = false :=
  ⟨_, _, rfl, rfl, rfl, rfl, rfl⟩

end Traffic

end Hub

end RemoteShell
