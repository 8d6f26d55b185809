import Mathlib.Logic.Function.Basic
import RemoteShell.Circuit.Registry
import RemoteShell.Proofs.Circuit.History

/-!
# A registry and the histories of its hosts

A registry keeps one breaker for each host that has given it cause, and makes it or drops it on the
way.  For every host, known or not, this is as good as a breaker that is always there: it encodes
the history of the calls that were made for that host, whatever is done for others.

## Main definitions

* `History.Alike`: two histories say the same of failures
* `Registry.Keeps`, `Registry.Recalls`: the breakers encode histories, one for each host

## Main results

* `Keeps.acquire`, `Keeps.success`, `Keeps.failure`, `Keeps.reset`: what each operation adds to the
  history of its host
* `Keeps.acquire_of_open`: while a circuit is open, a call is refused with the rest of the cool-down
-/

namespace RemoteShell.Circuit

namespace History

variable {p : Policy} {past past' : List Call} {t now : Instant}

/-- Behind an open circuit a call is refused with the rest of the cool-down. -/
theorem gate_of_open (hn : needed p ≤ failures past) (ht : lastFailure? past = some t)
    (hlt : now.since t < p.cooldown) :
    gate p past now = .error (p.cooldown.minus (now.since t)) := by
  have hopen : state p past now = .opened := by
    rw [state, if_neg (Nat.not_lt.mpr hn), ht]
    simp [hlt]
  rw [gate, hopen, remaining, ht]
  rfl

/-- Two histories say the same of failures. -/
structure Alike (past past' : List Call) : Prop where
  failures : failures past = failures past'
  lastFailure : lastFailure? past = lastFailure? past'

theorem Alike.cons (h : Alike past past') (c : Call) : Alike (c :: past) (c :: past') := by
  by_cases hc : c.clears
  · refine ⟨by rw [failures_of_clears hc, failures_of_clears hc], ?_⟩
    rw [lastFailure?, lastFailure?, sinceClear_of_clears hc, sinceClear_of_clears hc]
  · have hc : c.clears = false := by simpa using hc
    constructor
    · rw [History.failures, History.failures, sinceClear_of_keeps hc, sinceClear_of_keeps hc,
        List.countP_cons, List.countP_cons]
      exact congrArg (· + _) h.failures
    · rw [lastFailure?, lastFailure?, sinceClear_of_keeps hc, sinceClear_of_keeps hc,
        List.findSome?_cons, List.findSome?_cons]
      cases c.failedAt? with
      | none => exact h.lastFailure
      | some t => rfl

/-- The same calls come after histories that say the same of failures. -/
theorem Alike.append (h : Alike past past') (cs : List Call) :
    Alike (cs ++ past) (cs ++ past') := by
  induction cs with
  | nil => exact h
  | cons c cs ih => exact ih.cons c

theorem Alike.acquire (h : Alike past past') (now : Instant) :
    Alike (.acquire now :: past) past' :=
  ⟨(failures_of_other rfl rfl).trans h.failures,
    (lastFailure?_of_other rfl rfl).trans h.lastFailure⟩

end History

namespace Registry

variable {r : Registry} {past : String → List Call} {host h : String} {now t : Instant}

theorem breaker_withBreaker_self (r : Registry) (host : String) (b : Breaker) :
    (r.withBreaker host b).breaker host = b := by
  simp [withBreaker, breaker]

theorem breaker_withBreaker_of_ne (r : Registry) (b : Breaker) (hne : h ≠ host) :
    (r.withBreaker host b).breaker h = r.breaker h := by
  simp [withBreaker, breaker, Assoc.get?_put_of_ne _ _ hne]

/-- A circuit refuses a call only because it is open. -/
theorem acquire_error {f : Fault} (h : (r.acquire host now).1 = .error f) :
    f.kind = .circuitOpen := by
  simp only [acquire] at h
  cases hgate : ((r.breaker host).acquire r.policy now).1 with
  | error d =>
    rw [hgate] at h
    cases h
    rfl
  | ok u =>
    rw [hgate] at h
    cases h

/-- **A registry keeps histories**: the breaker of each host encodes the history of that host. -/
def Keeps (r : Registry) (past : String → List Call) : Prop :=
  ∀ host, (r.breaker host).Encodes r.policy (past host)

namespace Keeps

/-- A registry without breakers keeps histories in which nothing has happened. -/
protected theorem empty (p : Policy) : (Registry.empty p).Keeps fun _ => [] := fun _ => .fresh p

/-- What becomes of one breaker leaves the histories of other hosts alone. -/
theorem withBreaker (hk : r.Keeps past) {b : Breaker} {c : Call}
    (hb : b.Encodes r.policy (c :: past host)) :
    (r.withBreaker host b).Keeps (Function.update past host (c :: past host)) := by
  intro h
  by_cases hh : h = host
  · subst hh
    rw [breaker_withBreaker_self, Function.update_self]
    exact hb
  · rw [breaker_withBreaker_of_ne r b hh, Function.update_of_ne hh]
    exact hk h

theorem acquire (hk : r.Keeps past) (host : String) (now : Instant) :
    (r.acquire host now).2.Keeps (Function.update past host (.acquire now :: past host)) :=
  hk.withBreaker ((hk host).acquire now)

theorem failure (hk : r.Keeps past) (host : String) (now : Instant) :
    (r.failure host now).Keeps (Function.update past host (.failure now :: past host)) :=
  hk.withBreaker ((hk host).failure now)

/-- A breaker that is dropped has forgotten its failures. -/
theorem success (hk : r.Keeps past) (host : String) :
    (r.success host).Keeps (Function.update past host (.success :: past host)) := by
  intro h
  by_cases hh : h = host
  · subst hh
    have hfresh : (r.success h).breaker h = .fresh := by simp [Registry.success, breaker]
    rw [hfresh, Function.update_self]
    exact .clear (r.breaker h) _ rfl
  · have hsame : (r.success host).breaker h = r.breaker h := by
      simp [Registry.success, breaker, Assoc.get?_erase_of_ne _ hh]
    rw [hsame, Function.update_of_ne hh]
    exact hk h

/-- A host without a breaker has nothing to forget. -/
theorem reset (hk : r.Keeps past) (host : String) :
    (r.reset host).2.Keeps (Function.update past host (.reset :: past host)) := by
  have hclear : Breaker.fresh.Encodes r.policy (.reset :: past host) :=
    .clear (r.breaker host) _ rfl
  unfold Registry.reset
  split
  · exact hk.withBreaker hclear
  · next hnone =>
    intro h
    by_cases hh : h = host
    · subst hh
      have hget : r.breakers.get? h = none := by simpa [Assoc.has] using hnone
      have hfresh : r.breaker h = .fresh := by rw [breaker, hget, Option.getD_none]
      rw [Function.update_self]
      exact hfresh ▸ hclear
    · rw [Function.update_of_ne hh]
      exact hk h

/-- **While the circuit of a host is open**, a call to it is refused with the rest of the
cool-down. -/
theorem acquire_of_open (hk : r.Keeps past)
    (hn : History.needed r.policy ≤ History.failures (past host))
    (ht : History.lastFailure? (past host) = some t) (hlt : now.since t < r.policy.cooldown) :
    (r.acquire host now).1 =
      .error (.circuitOpen host (r.policy.cooldown.minus (now.since t))) := by
  have hgate : (r.breaker host).canExecute r.policy now =
      .error (r.policy.cooldown.minus (now.since t)) :=
    ((hk host).gate_eq now).trans (History.gate_of_open hn ht hlt)
  simp only [Registry.acquire, Breaker.acquire, hgate]
  rfl

end Keeps

/-- **A registry recalls histories** if it keeps them, under a policy. -/
structure Recalls (p : Policy) (past : String → List Call) (r : Registry) : Prop where
  policy : r.policy = p
  keeps : r.Keeps past

namespace Recalls

variable {p : Policy}

protected theorem empty (p : Policy) : (Registry.empty p).Recalls p fun _ => [] := ⟨rfl, .empty p⟩

theorem acquire (h : r.Recalls p past) (host : String) (now : Instant) :
    (r.acquire host now).2.Recalls p (Function.update past host (.acquire now :: past host)) :=
  ⟨h.policy, h.keeps.acquire host now⟩

theorem success (h : r.Recalls p past) (host : String) :
    (r.success host).Recalls p (Function.update past host (.success :: past host)) :=
  ⟨h.policy, h.keeps.success host⟩

theorem failure (h : r.Recalls p past) (host : String) (now : Instant) :
    (r.failure host now).Recalls p (Function.update past host (.failure now :: past host)) :=
  ⟨h.policy, h.keeps.failure host now⟩

theorem reset (h : r.Recalls p past) (host : String) :
    (r.reset host).2.Recalls p (Function.update past host (.reset :: past host)) := by
  refine ⟨?_, h.keeps.reset host⟩
  unfold Registry.reset
  split <;> exact h.policy

end Recalls

end Registry

end RemoteShell.Circuit
