import RemoteShell.Proofs.Circuit.History

/-!
# One probe per cool-down

Behind a half-open circuit one call is let through, and the next one only when a cool-down has gone
by.  A failure that arrives meanwhile forgets the probe, be it the failure of the probe itself or a
late one of a call from before the circuit opened.  This admits no second probe, because the same
failure starts the cool-down anew: from a probe on, there is always a probe or a failure on record
that is not older.

Clocks stand still or go forwards here.

## Main definitions

* `Call.instant?`, `Ordered`: calls at instants that never go back
* `ProbeGranted`: a call is let through while the circuit is not closed
* `History.Claimed`: the half-open circuit was claimed at an instant

## Main results

* `History.Claimed.cons`, `History.Claimed.append`: a claim stays until a success or reset
* `probes_apart`: probes are a cool-down apart, and as far from every failure before them
-/

namespace RemoteShell.Circuit

/-- The instant of a call, if it is told one. -/
def Call.instant? : Call → Option Instant
  | .failure now | .acquire now | .canExecute now | .state now | .status _ now => some now
  | .success | .reset => none

/-- The instants of calls never go back. -/
def Ordered (cs : List Call) : Prop := (cs.filterMap Call.instant?).Pairwise (· ≤ ·)

instance (cs : List Call) : Decidable (Ordered cs) := by
  unfold Ordered
  infer_instance

/-- After some calls on a new breaker, a call at an instant is let through although the circuit is
not closed. -/
def ProbeGranted (p : Policy) (before : List Call) (now : Instant) : Prop :=
  ((Breaker.fresh.serveAll p before).2.acquire p now).1 = .ok () ∧
    (Breaker.fresh.serveAll p before).2.state p now ≠ .closed

variable {p : Policy} {past before between : List Call} {c : Call} {t now f : Instant}

theorem Ordered.le_of_append {cs ds : List Call} (h : Ordered (cs ++ ds)) {c d : Call}
    {s t : Instant} (hc : c ∈ cs) (hs : c.instant? = some s) (hd : d ∈ ds)
    (ht : d.instant? = some t) : s ≤ t := by
  rw [Ordered, List.filterMap_append, List.pairwise_append] at h
  exact h.2.2 s (List.mem_filterMap.mpr ⟨c, hc, hs⟩) t (List.mem_filterMap.mpr ⟨d, hd, ht⟩)

theorem Ordered.of_append_left {cs ds : List Call} (h : Ordered (cs ++ ds)) : Ordered cs := by
  rw [Ordered, List.filterMap_append, List.pairwise_append] at h
  exact h.1

theorem cooldown_le_since_of_le {s : Instant} (hts : t ≤ s) (h : p.cooldown ≤ now.since s) :
    p.cooldown ≤ now.since t := by
  have hpassed : p.cooldown.nanos ≤ now.nanos - s.nanos := h
  have hearlier : t.nanos ≤ s.nanos := hts
  show p.cooldown.nanos ≤ now.nanos - t.nanos
  omega

namespace History

/-! ## What a probe finds -/

/-- A call that is let through behind a circuit that is not closed finds it half open: the cool-down
has passed since the latest failure, and since the probe if there is one. -/
theorem gate_eq_ok_iff (hs : state p past now ≠ .closed) :
    gate p past now = .ok () ↔ state p past now = .halfOpen ∧
      (probe? p past).all (fun t => p.cooldown ≤ now.since t) = true := by
  rw [gate]
  cases h : state p past now with
  | closed => exact absurd h hs
  | opened => simp
  | halfOpen => simp

theorem state_eq_halfOpen_iff :
    state p past now = .halfOpen ↔ needed p ≤ failures past ∧
      ∀ f, lastFailure? past = some f → p.cooldown ≤ now.since f := by
  rw [state]
  by_cases hn : failures past < needed p
  · rw [if_pos hn]
    exact ⟨fun h => absurd h (by decide), fun h => absurd h.1 (Nat.not_le_of_lt hn)⟩
  · obtain ⟨f, hf⟩ := exists_lastFailure_of_needed (Nat.le_of_not_lt hn)
    rw [if_neg hn, hf]
    simp [Nat.le_of_not_lt hn, Duration.lt_def, Duration.le_def]

/-- A failure since the latest success or reset is the latest of all failures. -/
theorem lastFailure?_eq_findSome? (h : lastFailure? past = some f) :
    past.findSome? Call.failedAt? = some f := by
  rw [lastFailure?, sinceClear] at h
  rw [← List.takeWhile_append_dropWhile (l := past) (p := fun c => !c.clears),
    List.findSome?_append, h]
  rfl

/-- No failure is later than the latest, when the instants never go back. -/
theorem le_of_lastFailure? (ho : Ordered past.reverse) (h : lastFailure? past = some f)
    (ht : .failure t ∈ past) : t ≤ f := by
  obtain ⟨newer, c, older, hpast, hc, hnewer⟩ :=
    List.findSome?_eq_some_iff.mp (lastFailure?_eq_findSome? h)
  obtain rfl : c = .failure f := by
    cases c <;> simp_all [Call.failedAt?]
  rw [hpast, List.mem_append, List.mem_cons] at ht
  rcases ht with ht | ht | ht
  · exact absurd (hnewer _ ht) (Option.some_ne_none t)
  · rw [Call.failure.injEq] at ht
    exact Nat.le_of_eq (congrArg Instant.nanos ht)
  · rw [hpast, List.reverse_append, List.reverse_cons] at ho
    exact ho.of_append_left.le_of_append (List.mem_reverse.mpr ht) rfl (List.mem_singleton_self _)
      rfl

/-! ## Claims -/

/-- **The half-open circuit was claimed** at an instant: the circuit is not closed, and a probe or a
failure that is not older is on record. -/
structure Claimed (p : Policy) (past : List Call) (t : Instant) : Prop where
  notClosed : needed p ≤ failures past
  onRecord : (∃ s, probe? p past = some s ∧ t ≤ s) ∨ ∃ f, lastFailure? past = some f ∧ t ≤ f

/-- Whoever is let through claims the circuit. -/
theorem claimed_of_probe (hs : state p past now = .halfOpen)
    (hp : (probe? p past).all (fun t => p.cooldown ≤ now.since t) = true) :
    Claimed p (.acquire now :: past) now where
  notClosed := by
    rw [failures_of_other rfl rfl]
    exact (state_eq_halfOpen_iff.mp hs).1
  onRecord := .inl ⟨now, by rw [probe?, if_pos ⟨hs, hp⟩], Nat.le_refl _⟩

namespace Claimed

/-- **A claim stays** when a call comes that is no success and no reset: a failure takes the place
of the probe, and a new probe that of the old one. -/
theorem cons (h : Claimed p past t) (hc : c.clears = false)
    (ht : ∀ now, c.instant? = some now → t ≤ now) : Claimed p (c :: past) t := by
  obtain ⟨hn, hr⟩ := h
  -- Calls that only ask leave the record as it is.
  have keep (hf : c.failedAt? = none) (hp : probe? p (c :: past) = probe? p past) :
      Claimed p (c :: past) t := by
    refine ⟨?_, ?_⟩
    · rw [failures_of_other hc hf]
      exact hn
    · rw [lastFailure?_of_other hc hf, hp]
      exact hr
  cases c with
  | success => cases hc
  | reset => cases hc
  | canExecute now => exact keep rfl rfl
  | state now => exact keep rfl rfl
  | status host now => exact keep rfl rfl
  | failure now =>
    refine ⟨?_, .inr ⟨now, lastFailure?_failure, ht now rfl⟩⟩
    rw [failures_failure]
    exact Nat.le_succ_of_le hn
  | acquire now =>
    by_cases hp : state p past now = .halfOpen ∧
        (probe? p past).all (fun t => p.cooldown ≤ now.since t) = true
    · refine ⟨?_, .inl ⟨now, by rw [probe?, if_pos hp], ht now rfl⟩⟩
      rw [failures_of_other hc rfl]
      exact hn
    · exact keep rfl (by rw [probe?, if_neg hp])

/-- A claim stays through any calls without a success or reset. -/
theorem append (h : Claimed p past t) {calls : List Call} (hc : ∀ c ∈ calls, c.clears = false)
    (ht : ∀ c ∈ calls, ∀ now, c.instant? = some now → t ≤ now) :
    Claimed p (calls ++ past) t := by
  induction calls with
  | nil => exact h
  | cons c calls ih =>
    have hcalls : Claimed p (calls ++ past) t := by
      refine ih (fun d hd => ?_) (fun d hd => ?_)
      · exact hc d (List.mem_cons_of_mem _ hd)
      · exact ht d (List.mem_cons_of_mem _ hd)
    exact hcalls.cons (hc c List.mem_cons_self) (ht c List.mem_cons_self)

/-- Whoever is let through after a claim comes a cool-down later. -/
theorem cooldown_le (h : Claimed p past t) (hs : state p past now = .halfOpen)
    (hp : (probe? p past).all (fun t => p.cooldown ≤ now.since t) = true) :
    p.cooldown ≤ now.since t := by
  rcases h.onRecord with ⟨s, hprobe, hts⟩ | ⟨f, hfail, htf⟩
  · rw [hprobe] at hp
    exact cooldown_le_since_of_le hts (of_decide_eq_true hp)
  · exact cooldown_le_since_of_le htf ((state_eq_halfOpen_iff.mp hs).2 f hfail)

end Claimed

end History

/-! ## Probes of a breaker -/

/-- A breaker grants a probe when the history has the circuit half open and no probe under way. -/
theorem ProbeGranted.of_history (h : ProbeGranted p before now) :
    History.state p before.reverse now = .halfOpen ∧
      (History.probe? p before.reverse).all (fun t => p.cooldown ≤ now.since t) = true := by
  obtain ⟨-, hb⟩ := (Breaker.Encodes.fresh p).serveAll before
  rw [List.append_nil] at hb
  obtain ⟨hgrant, hstate⟩ := h
  have hanswer := (hb.serve (.acquire now)).1
  have hgate : History.gate p before.reverse now = .ok () := by
    simp only [Breaker.serve, Prod.map, History.answer, hgrant, Reply.gate.injEq] at hanswer
    exact hanswer.symm
  rw [hb.state_eq] at hstate
  exact (History.gate_eq_ok_iff hstate).mp hgate

/-- **Probes are a cool-down apart**: of any calls on a new breaker at instants that never go back,
one that is let through while the circuit is not closed comes at least a cool-down after every
failure before it, of which there is one; and of two such calls without a success or reset between
them the second comes at least a cool-down after the first, whatever else happens meanwhile. -/
theorem probes_apart (p : Policy) (cs : List Call) (h : Ordered cs) :
    (∀ before t after, cs = before ++ .acquire t :: after → ProbeGranted p before t →
      (∃ f, .failure f ∈ before) ∧ ∀ f, .failure f ∈ before → p.cooldown ≤ t.since f) ∧
    ∀ before t₁ between t₂ after,
      cs = before ++ .acquire t₁ :: (between ++ .acquire t₂ :: after) →
      (∀ c ∈ between, c.clears = false) → ProbeGranted p before t₁ →
      ProbeGranted p (before ++ .acquire t₁ :: between) t₂ →
      t₁ ≤ t₂ ∧ p.cooldown ≤ t₂.since t₁ := by
  refine ⟨?_, ?_⟩
  · intro before t after hcs hgrant
    obtain ⟨hs, -⟩ := hgrant.of_history
    obtain ⟨hn, hcool⟩ := History.state_eq_halfOpen_iff.mp hs
    obtain ⟨f, hf⟩ := History.exists_lastFailure_of_needed hn
    have hbefore : Ordered before.reverse.reverse := by
      rw [hcs] at h
      rw [List.reverse_reverse]
      exact h.of_append_left
    refine ⟨⟨f, ?_⟩, fun g hg => ?_⟩
    · obtain ⟨c, hc, hcf⟩ := List.exists_of_findSome?_eq_some (History.lastFailure?_eq_findSome? hf)
      obtain rfl : c = .failure f := by
        cases c <;> simp_all [Call.failedAt?]
      exact List.mem_reverse.mp hc
    · have hgf : g ≤ f := History.le_of_lastFailure? hbefore hf (List.mem_reverse.mpr hg)
      exact cooldown_le_since_of_le hgf (hcool f hf)
  · intro before t₁ between t₂ after hcs hclear hfirst hsecond
    have hlater : ∀ c ∈ between ++ .acquire t₂ :: after, ∀ now, c.instant? = some now →
        t₁ ≤ now := by
      intro c hc now hnow
      rw [hcs, List.append_cons] at h
      exact h.le_of_append (List.mem_append_right _ (List.mem_singleton_self _)) rfl hc hnow
    refine ⟨hlater (.acquire t₂) (List.mem_append_right _ List.mem_cons_self) t₂ rfl, ?_⟩
    obtain ⟨hs₁, hp₁⟩ := hfirst.of_history
    obtain ⟨hs₂, hp₂⟩ := hsecond.of_history
    have hclaim : History.Claimed p (between.reverse ++ .acquire t₁ :: before.reverse) t₁ := by
      refine (History.claimed_of_probe hs₁ hp₁).append ?_ ?_
      · intro c hc
        exact hclear c (List.mem_reverse.mp hc)
      · intro c hc
        exact hlater c (List.mem_append_left _ (List.mem_reverse.mp hc))
    rw [List.reverse_append, List.reverse_cons, List.append_assoc, List.singleton_append]
      at hs₂ hp₂
    exact hclaim.cooldown_le hs₂ hp₂

/-- A probe, a late failure of an older call, a refused call, and the next probe. -/
def lateFailure : List Call :=
  [.failure ⟨0⟩, .acquire ⟨10⟩, .failure ⟨15⟩, .acquire ⟨21⟩, .acquire ⟨25⟩]

/-- The late failure forgets the first probe, and still the second one comes a cool-down later. -/
theorem probes_apart_late_failure :
    Ordered lateFailure ∧ ProbeGranted ⟨1, ⟨10⟩⟩ (lateFailure.take 1) ⟨10⟩ ∧
      ProbeGranted ⟨1, ⟨10⟩⟩ (lateFailure.take 4) ⟨25⟩ ∧
      (⟨10⟩ : Duration) ≤ Instant.since ⟨25⟩ ⟨15⟩ ∧
      (⟨10⟩ : Duration) ≤ Instant.since ⟨25⟩ ⟨10⟩ := by
  have hordered : Ordered lateFailure := by decide
  have hfirst : ProbeGranted ⟨1, ⟨10⟩⟩ (lateFailure.take 1) ⟨10⟩ := ⟨rfl, by decide⟩
  have hsecond : ProbeGranted ⟨1, ⟨10⟩⟩ (lateFailure.take 4) ⟨25⟩ := ⟨rfl, by decide⟩
  obtain ⟨hfailures, hprobes⟩ := probes_apart ⟨1, ⟨10⟩⟩ lateFailure hordered
  refine ⟨hordered, hfirst, hsecond, ?_, ?_⟩
  · exact (hfailures (lateFailure.take 4) ⟨25⟩ [] rfl hsecond).2 ⟨15⟩ (by decide)
  · exact (hprobes (lateFailure.take 1) ⟨10⟩ [.failure ⟨15⟩, .acquire ⟨21⟩] ⟨25⟩ [] rfl (by decide)
      hfirst hsecond).2

end RemoteShell.Circuit
