import RemoteShell.Proofs.Circuit.Refinement

/-!
# Registries that answer alike

Two registries that store their breakers in another order, or in another way altogether, are one to
those who ask them: whatever calls come, both give the same answers.  For this they need the same
policy, the same breaker for every host, and breakers stored for the same hosts.

In this sense a registry that refuses a call stays as it is.  It looks the breaker of the host up
and puts it back, and a host without a breaker is not refused.

## Main definitions

* `Breaker.refuses`: whether a breaker refuses a call
* `Registry.Alike`: two registries hold the same breakers

## Main results

* `Breaker.opened_iff_lt_remaining`: the rest of the cool-down is exact
* `Registry.acquire_fst_eq`: what a call that comes to a circuit is told
* `Registry.Alike.serveAll`: registries that are alike answer alike
* `Registry.alike_of_refused`: a refusal changes nothing
-/

namespace RemoteShell.Circuit

/-! ## Refusals -/

namespace Breaker

variable {p : Policy} {b : Breaker} {now later since : Instant}

/-- **A breaker refuses calls** while its circuit is open, and while it is half open and a probe is
under way. -/
def refuses (p : Policy) (b : Breaker) (now : Instant) : Bool :=
  match b.state p now with
  | .closed => false
  | .opened => true
  | .halfOpen => b.probing p now

/-- Nothing is left of the cool-down once the circuit is half open. -/
theorem remaining_of_halfOpen (h : b.state p now = .halfOpen) : b.remaining p now = .zero := by
  obtain ⟨failures, openedAt, probeAt⟩ := b
  cases openedAt with
  | none => cases h
  | some t =>
    have hover : ¬ now.since t < p.cooldown := by
      intro hlt
      simp [state, hlt] at h
    have hzero : p.cooldown.nanos - (now.since t).nanos = 0 :=
      Nat.sub_eq_zero_of_le (Nat.le_of_not_lt hover)
    simp only [remaining, Duration.minus, hzero, Duration.zero]

/-- **The rest of the cool-down is exact**: the circuit stays open until it has passed, and no
longer. -/
theorem opened_iff_lt_remaining (hopened : b.openedAt = some since) (hsince : since ≤ now)
    (hlater : now ≤ later) :
    b.state p later = .opened ↔ later.since now < b.remaining p now := by
  have hshift : later.since since < p.cooldown ↔
      later.since now < p.cooldown.minus (now.since since) := by
    simp only [Duration.lt_def, Duration.minus, Instant.since, Instant.le_def] at *
    omega
  simp only [state, remaining, hopened, ← hshift]
  split <;> simp_all

/-- A call that is refused is told how much of the cool-down is left. -/
theorem canExecute_eq (p : Policy) (b : Breaker) (now : Instant) :
    b.canExecute p now = if b.refuses p now then .error (b.remaining p now) else .ok () := by
  unfold canExecute refuses
  cases hstate : b.state p now with
  | closed => rfl
  | opened => rfl
  | halfOpen => rw [remaining_of_halfOpen hstate]

theorem not_refuses_fresh (p : Policy) (now : Instant) : fresh.refuses p now = false := rfl

end Breaker

namespace Registry

variable {r q : Registry} {host : String} {now : Instant}

/-- **What a call is told** when it comes to the circuit of a host. -/
theorem acquire_fst_eq (r : Registry) (host : String) (now : Instant) :
    (r.acquire host now).1 =
      if (r.breaker host).refuses r.policy now then
        .error (.circuitOpen host ((r.breaker host).remaining r.policy now))
      else .ok () := by
  simp only [acquire, Breaker.acquire, Breaker.canExecute_eq]
  cases (r.breaker host).refuses r.policy now <;> rfl

/-- A refused call is no probe. -/
theorem acquire_snd_of_refuses (h : (r.breaker host).refuses r.policy now = true) :
    (r.acquire host now).2 = r.withBreaker host (r.breaker host) := by
  simp only [acquire, Breaker.acquire, Breaker.canExecute_eq, h, if_true]

/-! ## Registries that are alike -/

/-- **Two registries hold the same breakers**, for the same hosts and under the same policy. -/
structure Alike (r q : Registry) : Prop where
  policy : q.policy = r.policy
  breaker : ∀ host, q.breaker host = r.breaker host
  stored : ∀ host, q.breakers.has host = r.breakers.has host

namespace Alike

protected theorem refl (r : Registry) : r.Alike r := ⟨rfl, fun _ => rfl, fun _ => rfl⟩

theorem reset_fst (r : Registry) (host : String) : (r.reset host).1 = r.breakers.has host := by
  unfold reset
  cases r.breakers.has host <;> rfl

/-- **One call** is answered alike, and leaves registries that are alike. -/
theorem serve (h : r.Alike q) (c : HostCall) :
    (q.serve c).1 = (r.serve c).1 ∧ (r.serve c).2.Alike (q.serve c).2 := by
  refine ⟨?_, ⟨?_, fun host => ?_, fun host => ?_⟩⟩
  · cases c with
    | acquire host now => simp only [Registry.serve, Prod.map, acquire_fst_eq, h.breaker, h.policy]
    | canExecute host now => simp only [Registry.serve, Registry.canExecute, h.breaker, h.policy]
    | success host => rfl
    | failure host now => rfl
    | status host now => simp only [Registry.serve, Registry.status, h.breaker, h.policy]
    | reset host => simp only [Registry.serve, Prod.map, reset_fst, h.stored]
  · rw [policy_serve, policy_serve, h.policy]
  · by_cases hc : c.host = host
    · subst hc
      rw [breaker_serve_self, breaker_serve_self, h.breaker, h.policy]
    · rw [breaker_serve_of_ne q hc, breaker_serve_of_ne r hc, h.breaker]
  · rw [Bool.eq_iff_iff, has_serve_iff, has_serve_iff, h.stored]

/-- **Registries that are alike answer alike.** -/
theorem serveAll (h : r.Alike q) (cs : List HostCall) : (q.serveAll cs).1 = (r.serveAll cs).1 := by
  induction cs generalizing r q with
  | nil => rfl
  | cons c cs ih =>
    obtain ⟨hreply, hnext⟩ := h.serve c
    exact congrArg₂ List.cons hreply (ih hnext)

end Alike

/-- **A refusal changes nothing**: the breaker was there, and is put back. -/
theorem alike_of_refused (h : (r.breaker host).refuses r.policy now = true) :
    r.Alike (r.acquire host now).2 := by
  have hhas : r.breakers.has host = true := by
    by_contra hnone
    rw [breaker_of_not_has (eq_false_of_ne_true hnone), Breaker.not_refuses_fresh] at h
    cases h
  rw [acquire_snd_of_refuses h]
  refine ⟨rfl, fun i => ?_, fun i => ?_⟩
  · by_cases hi : i = host
    · subst hi
      exact breaker_withBreaker_self r i _
    · exact breaker_withBreaker_of_ne r _ hi
  · rw [Bool.eq_iff_iff, has_withBreaker]
    constructor
    · rintro (rfl | h)
      · exact hhas
      · exact h
    · exact .inr

end Registry

end RemoteShell.Circuit
