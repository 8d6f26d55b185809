import RemoteShell.Proofs.Execution.Tries
import RemoteShell.Proofs.Execution.Reflection
import RemoteShell.Proofs.Pool.Departure

/-!
# Failed connections are not used again

When the connection of a command fails with a transient fault, it leaves the pool before the next
try looks for one.  What has left the pool is retired: it does not come back, and a search that
begins later does not end with it, whatever other commands and orders do meanwhile.  So the command
is not sent on it again.  Several commands may find out that the same connection has failed, at
different times: whoever is late leaves the connection alone that has taken its place.  A fault that
is not transient takes nothing out of the pool.

## Main definitions

* `Traffic.InHand`: a command is about to be given a connection
* `Traffic.Retired`: a connection is out of use but for the commands that have it in hand
* `Traffic.Mirrored`, `Traffic.Standing`: what is known of the pool and of the commands at every
  moment

## Main results

* `Mirrored.retired`: what has left the pool is retired
* `gone_of_transient`, `holds_of_not_transient`: what a fault does to the pool
* `never_reused`: every run
-/

namespace RemoteShell

open Pool (Get TakesOut)

/-! ## What a fault does to the pool -/

namespace Execution

variable {x y : Execution} {h : Hub} {c d : ConnId} {f : Fault} {now : Instant} {ds : List Deed}
  {t : Task}

/-- A command is at work on a connection: it runs there, or elevation does what it takes. -/
def WorksOn (x : Execution) (c : ConnId) : Prop :=
  x.phase = .running c ∨ ∃ climb, x.phase = .elevating c climb

theorem pool_finish (x : Execution) (r : Except Fault Outcome) (now : Instant) (h : Hub) :
    (x.finish r now h).1.pool = h.pool := Hub.Traffic.pool_report ..

theorem pool_retry (x : Execution) (f : Fault) (now : Instant) (h : Hub) :
    (x.retry f now h).1.pool = h.pool := by
  unfold retry
  split
  · rfl
  · exact x.pool_finish ..

/-- What a turn comes to is not a search for a connection. -/
def Elsewhere (p : Progress Execution Result) : Prop :=
  ∀ y g, p = .waits y → y.phase ≠ .getting g

theorem elsewhere_ends (r : Result) : Elsewhere (.ends r) := by
  intro y g hy
  cases hy

/-- A command that tries again backs off first. -/
theorem elsewhere_retry (x : Execution) (f : Fault) (now : Instant) (h : Hub) :
    Elsewhere (x.retry f now h).2 := by
  unfold retry
  split
  · rintro _ g ⟨⟩
    exact nofun
  · exact elsewhere_ends _

theorem elsewhere_discard (x : Execution) (c : ConnId) (f : Fault) (now : Instant) (h : Hub) :
    Elsewhere (x.discard c f now h).2 := by
  unfold discard
  split
  · split
    · rintro _ g ⟨⟩
      exact nofun
    · exact x.elsewhere_retry f now _
  · exact x.elsewhere_retry f now h

/-- **A connection that failed with a transient fault leaves the pool**, before anybody looks for
another one. -/
theorem discard_gone (x : Execution) (now : Instant) (ht : h.pool.Tidy) (hc : c ∈ h.pool.ids)
    (hf : f.transient = true) : (x.discard c f now h).1.pool.Gone c := by
  have hgone : (h.onPool (Pool.Removal.invalidate c)).1.pool.Gone c := Pool.gone_invalidate ht hc
  unfold discard
  rw [if_pos hf]
  generalize h.onPool (Pool.Removal.invalidate c) = p at hgone ⊢
  obtain ⟨h', r | n⟩ := p
  · exact hgone
  · exact (x.pool_retry f now h').symm ▸ hgone

theorem pool_discard (hf : f.transient = false) : (x.discard c f now h).1.pool = h.pool := by
  rw [discard, if_neg (by simp [hf])]
  exact x.pool_retry ..

theorem pool_drop (hf : f.transient = false) : (x.drop c f now h).1.pool = h.pool := by
  rw [drop, if_neg (by simp [hf])]
  exact x.pool_finish ..

/-- A use takes nothing out of the pool. -/
theorem holds_touch (ht : h.pool.Tidy) (o : Option ConnId) (now : Instant) :
    (h.touch o now).pool.Tidy ∧ ∀ d, (h.touch o now).pool.holds d = h.pool.holds d := by
  cases o with
  | none => exact ⟨ht, fun _ => rfl⟩
  | some c =>
    have htakes := TakesOut.touch h.pool c now
    exact ⟨htakes.tidy ht, htakes.holds_eq ht⟩

/-- **A fault that is not transient takes nothing out of the pool**, nor does elevation, which may
be told of it and go on. -/
theorem resume_holds (ht : h.pool.Tidy) (hs : Stands t x ds) (hx : x.WorksOn c)
    (ha : x.mayHear h (.replied (.error f)) = true) (hf : f.transient = false) (d : ConnId) :
    (x.resume (.replied (.error f)) now h).1.pool.holds d = h.pool.holds d := by
  obtain ⟨caller, task, attempts, delay, phase⟩ := x
  obtain ⟨-, hs⟩ := hs
  rcases hx with rfl | ⟨climb, rfl⟩
  · refine (congrArg (fun p : Pool => p.holds d) (pool_discard hf)).trans ?_
    exact (holds_touch ht (some c) now).2 d
  · obtain ⟨-, -, r, tries, es, -, -, hclimb, -⟩ := hs
    have htouch := holds_touch ht climb.running? now
    have hcandid := (hclimb.resume ha).candid
    rw [← elevation_touch h climb.running? now] at hcandid
    change ((afterClimb _ c now ((h.touch climb.running? now).onElevation
      (climb.resume (.replied (.error f))))).1.pool.holds d) = _
    rw [← htouch.2 d]
    unfold Hub.onElevation
    generalize climb.resume (.replied (.error f)) (h.touch climb.running? now).elevation = p
      at hcandid
    obtain ⟨e, z | (f' | out) | _⟩ := p
    · have hagain := holds_touch (h := { h.touch climb.running? now with elevation := e }) htouch.1
        z.running? now
      exact hagain.2 d
    · -- Elevation reports a transient fault only if it was told of it.
      have hf' : f'.transient = false := by
        by_contra htrans
        have htold := hcandid f' rfl (by simpa using htrans)
        cases htold
        simp [hf] at htrans
      exact congrArg (fun p : Pool => p.holds d) (pool_drop hf')
    · exact congrArg (fun p : Pool => p.holds d) (pool_finish ..)
    · rfl

/-! ## How a command comes to run -/

theorem mem_found {q : Progress Get Get.Result} (hq : .submits c ∈ found q) :
    q = .ends (.ok c) := by
  obtain g | f | d := q
  · cases hq
  · cases List.mem_singleton.mp hq
  · cases List.mem_singleton.mp hq
    rfl

theorem not_submits_comesTo (p : Progress Execution Result) : .submits c ∉ comesTo p := by
  obtain y | r := p <;> simp [comesTo]

theorem submits_learns {a : Answer} (hc : .submits c ∈ x.learns a now h) :
    (∃ g p, x.phase = .getting g ∧ g.resume a now h.pool = (p, .ends (.ok c))) ∨
      (Get.start x.caller x.task.target now h.pool).2 = .ends (.ok c) := by
  unfold learns at hc
  split at hc
  · next g hg => exact .inl ⟨g, _, hg, Prod.ext rfl (mem_found hc)⟩
  · cases List.mem_singleton.mp hc
  · exact .inr (mem_found hc)
  · cases hc

theorem pool_resume_of_found {g : Get} {a : Answer} {p : Pool} (hg : x.phase = .getting g)
    (hp : g.resume a now h.pool = (p, .ends (.ok c))) :
    (x.resume a now h).1.pool = p.touch c now := by
  obtain ⟨caller, task, attempts, delay, phase⟩ := x
  obtain rfl : phase = .getting g := hg
  change (afterGet _ now (h.onPool (g.resume a now))).1.pool = _
  rw [Hub.onPool, hp]
  rfl

end Execution

/-- A search does not end with a connection at once: it takes at least a sign of life. -/
theorem Pool.Get.start_ne_ok {p : Pool} (ht : p.Tidy) {id : CallId} {tgt : Target} {now : Instant}
    {c : ConnId} : (Get.start id tgt now p).2 ≠ .ends (.ok c) := by
  intro hends
  rcases Get.start_cases ht id tgt now with ⟨f, hstart⟩ | hstart | ⟨-, hturn⟩
  · rw [hstart] at hends
    cases hends
  · rw [hstart] at hends
    cases hends
  · generalize Get.start id tgt now p = q at hturn hends
    cases hturn with
    | waits lands => cases hends
    | @ends r found =>
      obtain ⟨q, hq, -⟩ := (Get.asking id tgt p).1.finish_eq r (Get.asking id tgt p).2
      rw [hq] at hends
      obtain rfl := Progress.ends.inj hends
      exact (found c rfl).1 rfl

namespace Hub

open Execution (Deed Stands Comes)

namespace Traffic

variable {s t u : Traffic} {now : Instant} {e : Event} {id : CallId} {c : ConnId}
  {es : List (Instant × Event)} {settings : Settings} {walk : Pool.Walk} {T : RemoteShell.Traffic}
  {x : Execution} {f : Fault} {a : Answer}

/-! ## From one moment to the next -/

/-- A command means to be given a connection: the search that it waits for has it in hand. -/
def InHand (s : Traffic) (id : CallId) (c : ConnId) : Prop :=
  ∃ x g, s.calls.get? id = some (.execution x) ∧ x.phase = .getting g ∧ g.hand = some c

/-- **A connection is retired**: it is not in the pool and does not come back, and no command is
sent on it any more but one that has it in hand. -/
def Retired (s : Traffic) (c : ConnId) : Prop :=
  ∀ es t, s.run es = some t → t.hub.pool.holds c = false ∧
    ∀ id, .submits c ∈ s.deeds id es → s.InHand id c

theorem Mirrors.inHand_iff (hm : s.Mirrors T) : T.InHand id c ↔ s.InHand id c := by
  constructor
  · rintro ⟨g, hg, hhand⟩
    rw [hm.calls] at hg
    obtain ⟨call, hcall, hpool⟩ := Option.bind_eq_some_iff.mp hg
    cases call with
    | execution x =>
      refine ⟨x, g, hcall, ?_, hhand⟩
      obtain ⟨caller, task, attempts, delay, phase⟩ := x
      cases phase <;> cases hpool
      rfl
    | removal r => cases hpool
  · rintro ⟨x, g, hx, hphase, hhand⟩
    refine ⟨g, (hm.get?_of_call hx).trans ?_, hhand⟩
    rw [Call.poolCall?, Execution.poolCall?, hphase]

/-- The pool of a hub sees traffic that is sound. -/
def Mirrored (s : Traffic) : Prop := ∃ T : RemoteShell.Traffic, T.Sound ∧ s.Mirrors T

/-- **What stays from one moment to a later one**: the pool forgets no connection, what has left it
stays out, and nobody comes to have in hand what has left it. -/
structure Keeps (s t : Traffic) : Prop where
  known : s.hub.pool.ids ⊆ t.hub.pool.ids
  gone : ∀ c, s.hub.pool.Gone c → t.hub.pool.Gone c
  inHand : ∀ id c, s.hub.pool.Gone c → t.InHand id c → s.InHand id c

protected theorem Keeps.refl (s : Traffic) : s.Keeps s :=
  ⟨List.Subset.refl _, fun _ => id, fun _ _ _ => id⟩

theorem Keeps.trans (h : s.Keeps t) (h' : t.Keeps u) : s.Keeps u where
  known := List.Subset.trans h.known h'.known
  gone c hc := h'.gone c (h.gone c hc)
  inHand id c hc hi := h.inHand id c hc (h'.inHand id c (h.gone c hc) hi)

namespace Mirrored

theorem tidy (hm : s.Mirrored) : s.hub.pool.Tidy := by
  obtain ⟨T, hT, hmirrors⟩ := hm
  exact hmirrors.pool ▸ hT.tidy

theorem step (hm : s.Mirrored) (hs : s.step now e = some t) : t.Mirrored ∧ s.Keeps t := by
  obtain ⟨T, hT, hmirrors⟩ := hm
  obtain ⟨fs, U, hr⟩ := reflects_step hmirrors hs
  refine ⟨⟨U, hT.run hr.run, hr.mirrors⟩, ?_, fun c hc => ?_, fun id c hc hi => ?_⟩
  · rw [← hmirrors.pool, ← hr.mirrors.pool, (RemoteShell.Traffic.grows_run hr.run).ids]
    exact List.subset_append_left _ _
  · rw [← hmirrors.pool] at hc
    exact hr.mirrors.pool ▸ hT.gone_run hr.run hc
  · rw [← hmirrors.pool] at hc
    exact hmirrors.inHand_iff.mp (hT.inHand_run hr.run hc (hr.mirrors.inHand_iff.mpr hi))

/-- A search ends with a connection that the pool knows, and if the connection has left the pool the
search had it in hand. -/
theorem found {g : Get} (hm : s.Mirrored) (hx : s.calls.get? id = some (.execution x))
    (hg : x.phase = .getting g) (hmay : x.mayHear s.hub a = true) {p : Pool}
    (hp : g.resume a now s.hub.pool = (p, .ends (.ok c))) :
    c ∈ p.ids ∧ (s.hub.pool.Gone c → s.InHand id c) := by
  obtain ⟨T, hT, hmirrors⟩ := hm
  obtain ⟨caller, task, attempts, delay, phase⟩ := x
  obtain rfl : phase = .getting g := hg
  have hcall : T.calls.get? id = some (.search g) := hmirrors.get?_of_call hx
  have hmay : (Pool.Call.search g).mayHear s.hub.pool a = true := hmay
  have hstep : T.step now (.answer id a) = some (T.afterSearch id (p, .ends (.ok c))) := by
    rw [RemoteShell.Traffic.step, hcall, Option.bind_some, hmirrors.pool, if_pos hmay,
      RemoteShell.Traffic.resume, hmirrors.pool, hp]
  obtain ⟨_, _, _, ⟨⟩, -, hknows, -, hhand⟩ := (hT.happens hstep).found rfl
  exact ⟨hknows.mem_ids, fun hgone => hmirrors.inHand_iff.mp (hhand (hmirrors.pool ▸ hgone))⟩

/-- **A command is sent on a connection that its search has found**: the pool knows it, and if it
has left the pool the command had it in hand. -/
theorem submits (hm : s.Mirrored) (hs : s.step now e = some t)
    (hc : .submits c ∈ s.deedsIn id now e) :
    c ∈ t.hub.pool.ids ∧ (s.hub.pool.Gone c → s.InHand id c) := by
  rcases begins_or_does_of_mem_deedsIn hc with
    ⟨task, cancelled, -, -, hc⟩ | ⟨x, a, rfl, hx, hc⟩
  · have hbegins := (List.mem_append.mp hc).resolve_right (Execution.not_submits_comesTo _)
    exact absurd (Execution.mem_found hbegins) (Get.start_ne_ok hm.tidy)
  · have hlearns := (List.mem_append.mp hc).resolve_right (Execution.not_submits_comesTo _)
    obtain ⟨hmay, rfl⟩ := after_of_answer hx hs
    rcases Execution.submits_learns hlearns with ⟨g, p, hg, hp⟩ | hstart
    · obtain ⟨hids, hhand⟩ := hm.found hx hg hmay hp
      refine ⟨?_, hhand⟩
      rw [hub_after, Execution.pool_resume_of_found hg hp, (Pool.Grows.touch p c now).ids,
        List.append_nil]
      exact hids
    · exact absurd hstart (Get.start_ne_ok hm.tidy)

/-- **What has left the pool is retired.** -/
theorem retired (hm : s.Mirrored) (hc : s.hub.pool.Gone c) : s.Retired c := by
  intro es t hs
  induction es generalizing s with
  | nil =>
    cases hs
    exact ⟨hm.tidy.holds_of_gone hc, nofun⟩
  | cons y es ih =>
    obtain ⟨now, e⟩ := y
    obtain ⟨u, hu, hs⟩ := Option.bind_eq_some_iff.mp hs
    obtain ⟨hmu, hkeeps⟩ := hm.step hu
    obtain ⟨hout, hlater⟩ := ih hmu (hkeeps.gone c hc) hs
    refine ⟨hout, fun id hsubmits => ?_⟩
    rw [deeds_cons hu] at hsubmits
    rcases List.mem_append.mp hsubmits with hnow | hthen
    · exact (hm.submits hu hnow).2 hc
    · exact hkeeps.inHand id c hc (hlater id hthen)

end Mirrored

/-! ## What the commands have done -/

/-- Every command has kept to its course so far, and the pool knows the connections on which it was
sent. -/
def Standing (s : Traffic) : Prop :=
  ∀ id x, s.calls.get? id = some (.execution x) →
    ∃ task ds, Stands task x ds ∧ ∀ c, .submits c ∈ ds → c ∈ s.hub.pool.ids

theorem Standing.step (hst : s.Standing) (hm : s.Mirrored) (hs : s.step now e = some t) :
    t.Standing := by
  intro id x hx
  have hkeeps := (hm.step hs).2
  by_cases hid : e.call? = some id
  · have hnew (c : ConnId) (hc : .submits c ∈ s.deedsIn id now e) : c ∈ t.hub.pool.ids :=
      (hm.submits hs hc).1
    rcases waits_of_step hs hid hx with
      ⟨task, cancelled, rfl, hstart⟩ | ⟨y, a, rfl, hy, hmay, hresume⟩
    · by_cases hadmits : s.hub.admits task cancelled now = true
      · have hcomes : Comes task _ (Execution.start id task cancelled now s.hub).2 :=
          Execution.start_comes hadmits
        rw [deedsIn, if_pos ⟨rfl, hadmits⟩, Execution.begins, hstart] at hnew
        rw [hstart] at hcomes
        exact ⟨task, _, hcomes, hnew⟩
      · -- A command that is not admitted ends at once.
        rcases Execution.start_cases id task cancelled now s.hub with
          ⟨f, -, hends⟩ | ⟨f, -, -, hends⟩ | ⟨hrefusal, hcircuit, -⟩
        · cases congrArg Prod.snd (hstart.symm.trans hends)
        · cases congrArg Prod.snd (hstart.symm.trans hends)
        · refine absurd ?_ hadmits
          rw [Hub.admits, hrefusal, hcircuit]
          rfl
    · obtain ⟨task, ds, hstands, hknown⟩ := hst id y hy
      have hcomes := Execution.resume_comes hstands hmay now
      rw [hresume] at hcomes
      refine ⟨task, _, hcomes, fun c hc => ?_⟩
      rw [List.append_assoc] at hc
      rcases List.mem_append.mp hc with hc | hc
      · exact hkeeps.known (hknown c hc)
      · refine hnew c ?_
        rw [deedsIn, if_pos rfl, hy]
        dsimp only
        rw [Execution.does, hresume]
        exact hc
  · obtain ⟨task, ds, hstands, hknown⟩ := hst id x ((get?_step_of_ne hs hid).symm.trans hx)
    exact ⟨task, ds, hstands, fun c hc => hkeeps.known (hknown c hc)⟩

theorem standing_idle (settings : Settings) (walk : Pool.Walk) : (idle settings walk).Standing := by
  intro id x hx
  cases hx

/-- What is known at every moment. -/
theorem mirrored_and_standing (h : (idle settings walk).run es = some s) :
    s.Mirrored ∧ s.Standing := by
  have hrun {s t : Traffic} {es : List (Instant × Event)} (hm : s.Mirrored) (hst : s.Standing)
      (hs : s.run es = some t) : t.Mirrored ∧ t.Standing := by
    induction es generalizing s with
    | nil => exact Option.some.inj hs ▸ ⟨hm, hst⟩
    | cons y es ih =>
      obtain ⟨u, hu, hs⟩ := Option.bind_eq_some_iff.mp hs
      exact ih (hm.step hu).1 (hst.step hm hu) hs
  exact hrun ⟨_, .idle settings.pool walk, .idle settings walk⟩ (standing_idle settings walk) h

/-! ## Faults -/

/-- **A connection on which a command failed with a transient fault** leaves the pool, and the
command does not have it in hand any more. -/
theorem gone_of_transient (hm : s.Mirrored) (hst : s.Standing)
    (hx : s.calls.get? id = some (.execution x)) (hphase : x.phase = .running c)
    (hf : f.transient = true) (hs : s.step now (.answer id (.replied (.error f))) = some t) :
    t.hub.pool.Gone c ∧ ¬ t.InHand id c := by
  have hknown : c ∈ s.hub.pool.ids := by
    obtain ⟨task, ds, ⟨-, hstands⟩, hknown⟩ := hst id x hx
    rw [hphase] at hstands
    obtain ⟨n, missed, -, -, -, rfl⟩ := hstands
    exact hknown c (List.mem_append_right _ (List.mem_singleton_self _))
  obtain ⟨-, rfl⟩ := after_of_answer hx hs
  obtain ⟨caller, task, attempts, delay, phase⟩ := x
  obtain rfl : phase = .running c := hphase
  have htouch := Execution.holds_touch hm.tidy (some c) now
  have hids : c ∈ (s.hub.touch (some c) now).pool.ids := by
    have hgrows := (Pool.Grows.touch s.hub.pool c now).ids
    exact hgrows ▸ List.mem_append_left [] hknown
  refine ⟨?_, ?_⟩
  · rw [hub_after]
    exact Execution.discard_gone _ now htouch.1 hids hf
  · rintro ⟨y, g, hy, hphase, -⟩
    exact Execution.elsewhere_discard _ c f now _ y g (waits_of_after hy) hphase

/-- **A fault that is not transient** takes nothing out of the pool. -/
theorem holds_of_not_transient (hm : s.Mirrored) (hst : s.Standing)
    (hx : s.calls.get? id = some (.execution x)) (hworks : x.WorksOn c)
    (hf : f.transient = false) (hs : s.step now (.answer id (.replied (.error f))) = some t)
    (d : ConnId) : t.hub.pool.holds d = s.hub.pool.holds d := by
  obtain ⟨task, ds, hstands, -⟩ := hst id x hx
  obtain ⟨hmay, rfl⟩ := after_of_answer hx hs
  rw [hub_after]
  exact Execution.resume_holds hm.tidy hstands hworks hmay hf d

/-! ## Runs -/

/-- **A connection that failed is never used again.**  In all traffic on a pool, a connection that
was delivered and is in the pool no more is retired.  In every run on a hub, whatever commands and
orders come and whatever they are answered, this holds as well; an order about a connection leaves
the pool as it is when another connection is in the place of it; a command that failed on a
connection with a transient fault is never sent on it again; and a command, or what elevation sends,
that fails with a fault that is not transient takes nothing out of the pool. -/
theorem never_reused (settings : Settings) :
    (∀ es T, (RemoteShell.Traffic.idle settings.pool walk).run es = some T →
      ∀ c ∈ RemoteShell.Traffic.delivered es, T.pool.holds c = false → T.Retired c) ∧
    ∀ es s, (idle settings walk).run es = some s →
      (∀ c ∈ delivered es, s.hub.pool.holds c = false → s.Retired c) ∧
      (∀ e ∈ s.hub.pool.entries, ∀ f, s.hub.pool.lookup e.key = some f → f.id ≠ e.id →
        ∀ now, (Pool.Order.one e.id).start now s.hub.pool = (s.hub.pool, .ends 0)) ∧
      ∀ id x c f now t, s.calls.get? id = some (.execution x) →
        s.step now (.answer id (.replied (.error f))) = some t →
        (x.phase = .running c → f.transient = true →
          t.Retired c ∧ ∀ fs u, t.run fs = some u → .submits c ∉ t.deeds id fs) ∧
        (x.WorksOn c → f.transient = false → ∀ d, t.hub.pool.holds d = s.hub.pool.holds d) := by
  refine ⟨fun es T hT c => RemoteShell.Traffic.retired_of_delivered hT, fun es s hs => ?_⟩
  obtain ⟨hm, hst⟩ := mirrored_and_standing hs
  refine ⟨fun c hc hout => ?_,
    fun e he f hf hne => Pool.start_one_of_lookup_ne hm.tidy he hf hne, ?_⟩
  · have hids : c ∈ s.hub.pool.ids := by
      obtain ⟨fs, T, hr⟩ := exists_reflection hs
      rw [← hr.delivered, RemoteShell.Traffic.mem_delivered_iff hr.run, hr.mirrors.pool] at hc
      exact Pool.mem_ids.mpr hc
    exact hm.retired (hm.tidy.gone_of_not_holds hids hout)
  · intro id x c f now t hx hstep
    refine ⟨fun hphase hf => ?_, fun hworks hf => holds_of_not_transient hm hst hx hworks hf hstep⟩
    obtain ⟨hgone, hhand⟩ := gone_of_transient hm hst hx hphase hf hstep
    have hretired : t.Retired c := (hm.step hstep).1.retired hgone
    exact ⟨hretired, fun fs u hu hsubmits => hhand ((hretired fs u hu).2 id hsubmits)⟩

/-- A command drops its connection, and while it waits for the close another command connects under
the same login. -/
def overtaken : List (Instant × Event) :=
  [(.start, .execute 0 (listing "u") false), (.start, .answer 0 (.connected (.ok 0))),
    (.start, .answer 0 (.replied (.error (.connectionLost "a" "reset")))),
    (.start, .execute 1 (listing "u") false), (.start, .answer 1 (.connected (.ok 1)))]

/-- The first connection is retired, and to drop it once more does not harm the second one.  If that
one breaks as well, its command is not sent on it again; if the command takes too long, it stays. -/
theorem never_reused_of_overtaken :
    ∃ s t u, (idle (.standard ⟨[]⟩)).run overtaken = some s ∧ s.Retired 0 ∧
      (Pool.Order.one 0).start .start s.hub.pool = (s.hub.pool, .ends 0) ∧
      s.step .start (.answer 1 (.replied (.error (.connectionLost "a" "reset")))) = some t ∧
      (∀ fs v, t.run fs = some v → .submits 1 ∉ t.deeds 1 fs) ∧
      s.step .start (.answer 1 (.replied (.error (.commandTimeout "a" (.ofSecs 10))))) = some u ∧
      u.hub.pool.holds 1 = true := by
  have hruns : ((idle (.standard ⟨[]⟩)).run overtaken).bind (fun s =>
      (s.step .start (.answer 1 (.replied (.error (.connectionLost "a" "reset"))))).bind fun _ =>
        (s.step .start (.answer 1 (.replied (.error (.commandTimeout "a" (.ofSecs 10)))))).map
          fun _ => (s.calls.get? 1, s.hub.pool.holds 0, s.hub.pool.holds 1,
            (s.hub.pool.entry? 0).map fun e => (s.hub.pool.lookup e.key).map (·.id))) =
      some (some (.execution ⟨1, listing "u", 1, .ofSecs 1, .running 1⟩), false, true,
        some (some 1)) := by rfl
  obtain ⟨s, hs, hruns⟩ := Option.bind_eq_some_iff.mp hruns
  obtain ⟨t, ht, hruns⟩ := Option.bind_eq_some_iff.mp hruns
  obtain ⟨u, hu, hruns⟩ := Option.map_eq_some_iff.mp hruns
  obtain ⟨hx, hout, hholds, hentry⟩ := by simpa only [Prod.mk.injEq] using hruns
  obtain ⟨e, he, hlookup⟩ := Option.map_eq_some_iff.mp hentry
  obtain ⟨f, hf, hfid⟩ := Option.map_eq_some_iff.mp hlookup
  have heid : e.id = 0 := by simpa using List.find?_some he
  obtain ⟨hretired, hspares, hfaults⟩ := (never_reused (.standard ⟨[]⟩)).2 _ s hs
  have hone := hspares e (List.mem_of_find?_eq_some he) f hf (by rw [hfid, heid]; decide) .start
  rw [heid] at hone
  refine ⟨s, t, u, hs, hretired 0 (by decide) hout, hone, ht, ?_, hu, ?_⟩
  · exact ((hfaults 1 _ 1 _ .start t hx ht).1 rfl rfl).2
  · exact ((hfaults 1 _ 1 _ .start u hx hu).2 (.inl rfl) rfl 1).trans hholds

end Traffic

end Hub

end RemoteShell
