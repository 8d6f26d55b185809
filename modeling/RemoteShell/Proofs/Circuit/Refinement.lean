import Mathlib.Data.List.Induction
import RemoteShell.Proofs.Circuit.Hosts

/-!
# A registry as one breaker for each host

A registry makes breakers when they are first needed and drops them on success.  Nobody can tell:
for whatever calls, on whatever hosts and at whatever instants, what is said of a host is what a
breaker of its own would say that was there from the start, was never dropped, and received the
calls that name the host and no others.

Only a reset by hand shows whether the registry has a breaker: it has one if the host was gated or
failed since its latest success.

## Main definitions

* `HostCall`, `HostReply`, `Registry.serve`, `Registry.serveAll`: the calls on a registry and what
  they answer
* `ownBreaker`, `Known`, `ownReply`: what a breaker for one host alone would answer
* `Registry.Refines`: a registry holds the breakers of all hosts

## Main results

* `Registry.Refines.serve`: a call is answered for its host alone, and the breakers are kept
* `replies_eq_ownReplies`: the replies to any calls are those of a breaker for each host
-/

namespace RemoteShell.Circuit

/-! ## Calls on a registry -/

/-- A call on a registry, for one host. -/
inductive HostCall where
  | acquire (host : String) (now : Instant)
  | canExecute (host : String) (now : Instant)
  | success (host : String)
  | failure (host : String) (now : Instant)
  | status (host : String) (now : Instant)
  | reset (host : String)
  deriving DecidableEq, Repr

/-- What a call on a registry answers. -/
inductive HostReply where
  | nothing
  | gate (r : Except Fault Unit)
  | may (b : Bool)
  | status (s : Status)
  -- Did the host have a breaker?
  | known (b : Bool)

namespace HostCall

/-- The host that a call names. -/
def host : HostCall → String
  | .acquire host _ | .canExecute host _ | .success host | .failure host _ | .status host _
  | .reset host => host

/-- The call as one on the breaker of its host. -/
def call : HostCall → Call
  | .acquire _ now => .acquire now
  | .canExecute _ now => .canExecute now
  | .success _ => .success
  | .failure _ now => .failure now
  | .status host now => .status host now
  | .reset _ => .reset

/-- Does the call give a host a breaker that has none? -/
def makes (h : String) : HostCall → Bool
  | .acquire host _ | .failure host _ => host = h
  | _ => false

end HostCall

namespace Registry

/-- A registry serves a call. -/
def serve (r : Registry) : HostCall → HostReply × Registry
  | .acquire host now => (r.acquire host now).map .gate id
  | .canExecute host now => (.may (r.canExecute host now), r)
  | .success host => (.nothing, r.success host)
  | .failure host now => (.nothing, r.failure host now)
  | .status host now => (.status (r.status host now), r)
  | .reset host => (r.reset host).map .known id

/-- A registry serves calls in order. -/
def serveAll (r : Registry) : List HostCall → List HostReply × Registry
  | [] => ([], r)
  | c :: cs =>
    let (a, r) := r.serve c
    let (as, r) := serveAll r cs
    (a :: as, r)

end Registry

/-! ## Each host by itself

The calls so far stand in their order, the first one first. -/

/-- The calls that name a host, as calls on a breaker of its own. -/
def callsFor (host : String) (cs : List HostCall) : List Call :=
  (cs.filter (·.host = host)).map HostCall.call

/-- **The breaker that a host would have for itself**: it is there from the start and is never
dropped. -/
def ownBreaker (p : Policy) (earlier : List HostCall) (host : String) : Breaker :=
  (Breaker.fresh.serveAll p (callsFor host earlier)).2

/-- **A host is known**: it was gated or failed since its latest success, or since the start. -/
def Known (earlier : List HostCall) (host : String) : Prop :=
  ∃ c ∈ earlier.reverse.takeWhile (· ≠ .success host), c.makes host

instance (earlier : List HostCall) (host : String) : Decidable (Known earlier host) := by
  unfold Known
  infer_instance

/-- **What a call answers after others**, by the breaker that its host has for itself. -/
def ownReply (p : Policy) (earlier : List HostCall) : HostCall → HostReply
  | .acquire host now =>
    .gate (((ownBreaker p earlier host).acquire p now).1.mapError (Fault.circuitOpen host))
  | .canExecute host now => .may ((ownBreaker p earlier host).canExecute p now).isOk
  | .success _ | .failure .. => .nothing
  | .status host now => .status ((ownBreaker p earlier host).status p host now)
  | .reset host => .known (Known earlier host)

/-- What calls answer in order after others. -/
def ownReplies (p : Policy) (earlier : List HostCall) : List HostCall → List HostReply
  | [] => []
  | c :: cs => ownReply p earlier c :: ownReplies p (earlier ++ [c]) cs

variable {p : Policy} {r : Registry} {earlier : List HostCall} {c : HostCall} {h host : String}

theorem serveAll_snoc_snd (p : Policy) (b : Breaker) (cs : List Call) (c : Call) :
    (b.serveAll p (cs ++ [c])).2 = ((b.serveAll p cs).2.serve p c).2 := by
  induction cs generalizing b with
  | nil => rfl
  | cons d cs ih => exact ih (b.serve p d).2

/-- A host's own breaker serves the calls that name the host. -/
theorem ownBreaker_snoc_self (p : Policy) (earlier : List HostCall) (c : HostCall) :
    ownBreaker p (earlier ++ [c]) c.host = ((ownBreaker p earlier c.host).serve p c.call).2 := by
  have hcalls : callsFor c.host (earlier ++ [c]) = callsFor c.host earlier ++ [c.call] := by
    simp [callsFor]
  rw [ownBreaker, hcalls, serveAll_snoc_snd]
  rfl

theorem ownBreaker_snoc_of_ne (p : Policy) (earlier : List HostCall) (hne : c.host ≠ h) :
    ownBreaker p (earlier ++ [c]) h = ownBreaker p earlier h := by
  have hcalls : callsFor h (earlier ++ [c]) = callsFor h earlier := by
    simp [callsFor, hne]
  rw [ownBreaker, hcalls]
  rfl

theorem known_snoc_iff :
    Known (earlier ++ [c]) h ↔ c ≠ .success h ∧ (c.makes h = true ∨ Known earlier h) := by
  unfold Known
  rw [List.reverse_append, List.reverse_singleton, List.singleton_append, List.takeWhile_cons]
  by_cases hc : c = .success h <;> simp [hc]

theorem ownBreaker_filter (p : Policy) (earlier : List HostCall) (h : String) :
    ownBreaker p (earlier.filter (·.host = h)) h = ownBreaker p earlier h := by
  rw [ownBreaker, callsFor, List.filter_filter]
  simp only [Bool.and_self]
  rfl

theorem known_filter_iff : Known (earlier.filter (·.host = h)) h ↔ Known earlier h := by
  induction earlier using List.reverseRecOn with
  | nil => rfl
  | append_singleton earlier c ih =>
    rw [List.filter_append, known_snoc_iff]
    by_cases hc : c.host = h
    · rw [List.filter_cons_of_pos (by simpa using hc), List.filter_nil, known_snoc_iff, ih]
    · have hsuccess : c ≠ .success h := fun e => hc (by rw [e]; rfl)
      have hmakes : c.makes h = false := by
        cases c <;> simp_all [HostCall.makes, HostCall.host]
      rw [List.filter_cons_of_neg (by simpa using hc), List.filter_nil, List.append_nil, ih, hmakes]
      simp [hsuccess]

/-- Calls on other hosts have no part in what is answered. -/
theorem ownReply_filter (p : Policy) (earlier : List HostCall) (c : HostCall) :
    ownReply p (earlier.filter (·.host = c.host)) c = ownReply p earlier c := by
  have hbreaker := ownBreaker_filter p earlier c.host
  cases c with
  | acquire host now =>
    exact congrArg (fun b => HostReply.gate ((b.acquire p now).1.mapError (.circuitOpen host)))
      hbreaker
  | canExecute host now =>
    exact congrArg (fun b => HostReply.may (b.canExecute p now).isOk) hbreaker
  | success host => rfl
  | failure host now => rfl
  | status host now => exact congrArg (fun b => HostReply.status (b.status p host now)) hbreaker
  | reset host => exact congrArg HostReply.known (decide_eq_decide.mpr known_filter_iff)

/-! ## The registry -/

namespace Registry

/-- **A registry refines the breakers of all hosts**: the breaker of each host is the host's own,
and it is stored for the hosts that are known. -/
structure Refines (r : Registry) (p : Policy) (earlier : List HostCall) : Prop where
  policy : r.policy = p
  breaker : ∀ host, r.breaker host = ownBreaker p earlier host
  stored : ∀ host, r.breakers.has host = true ↔ Known earlier host

/-- A host without a breaker counts as one that has seen nothing. -/
theorem breaker_of_not_has (hr : r.breakers.has host = false) : r.breaker host = .fresh := by
  have hget : r.breakers.get? host = none := by simpa [Assoc.has] using hr
  rw [breaker, hget, Option.getD_none]

theorem has_withBreaker (r : Registry) (b : Breaker) :
    (r.withBreaker host b).breakers.has h = true ↔ host = h ∨ r.breakers.has h = true := by
  by_cases hh : h = host
  · subst hh
    simp [withBreaker, Assoc.has]
  · simp [withBreaker, Assoc.has, Assoc.get?_put_of_ne _ _ hh, Ne.symm hh]

/-- A call does to the breaker of its host what it would do to the breaker alone. -/
theorem breaker_serve_self (r : Registry) (c : HostCall) :
    (r.serve c).2.breaker c.host = ((r.breaker c.host).serve r.policy c.call).2 := by
  cases c with
  | acquire host now => exact breaker_withBreaker_self r host _
  | canExecute host now => rfl
  | success host =>
    have hdropped : (r.success host).breakers.has host = false := by
      simp [Registry.success, Assoc.has]
    exact breaker_of_not_has hdropped
  | failure host now => exact breaker_withBreaker_self r host _
  | status host now => rfl
  | reset host =>
    change (r.reset host).2.breaker host = .fresh
    unfold reset
    split
    · exact breaker_withBreaker_self r host _
    · next hnone => exact breaker_of_not_has (by simpa using hnone)

/-- A call leaves the breakers of other hosts alone. -/
theorem breaker_serve_of_ne (r : Registry) (hne : c.host ≠ h) :
    (r.serve c).2.breaker h = r.breaker h := by
  cases c with
  | acquire host now => exact breaker_withBreaker_of_ne r _ hne.symm
  | canExecute host now => rfl
  | success host =>
    change (r.success host).breaker h = r.breaker h
    have hget : (r.breakers.erase host).get? h = r.breakers.get? h :=
      Assoc.get?_erase_of_ne _ hne.symm
    simp only [Registry.success, breaker, hget]
  | failure host now => exact breaker_withBreaker_of_ne r _ hne.symm
  | status host now => rfl
  | reset host =>
    change (r.reset host).2.breaker h = r.breaker h
    unfold reset
    split
    · exact breaker_withBreaker_of_ne r _ hne.symm
    · rfl

/-- A breaker is made for a host that is gated or fails, and dropped on success. -/
theorem has_serve_iff (r : Registry) (c : HostCall) (h : String) :
    (r.serve c).2.breakers.has h = true ↔
      c ≠ .success h ∧ (c.makes h = true ∨ r.breakers.has h = true) := by
  cases c with
  | acquire host now =>
    have hhas : (r.acquire host now).2.breakers.has h = true ↔ _ := has_withBreaker r _
    simpa [serve, HostCall.makes] using hhas
  | canExecute host now => simp [serve, HostCall.makes]
  | success host =>
    by_cases hh : h = host
    · subst hh
      simp [serve, Registry.success, Assoc.has]
    · simp [serve, Registry.success, Assoc.has, HostCall.makes, Assoc.get?_erase_of_ne _ hh,
        Ne.symm hh]
  | failure host now =>
    have hhas : (r.failure host now).breakers.has h = true ↔ _ := has_withBreaker r _
    simpa [serve, HostCall.makes] using hhas
  | status host now => simp [serve, HostCall.makes]
  | reset host =>
    change (r.reset host).2.breakers.has h = true ↔ _
    unfold reset
    split
    · next hhas =>
      -- The breaker was there before.
      rw [has_withBreaker]
      by_cases hh : host = h
      · simp [← hh, hhas]
      · simp [hh, HostCall.makes]
    · simp [HostCall.makes]

theorem policy_serve (r : Registry) (c : HostCall) : (r.serve c).2.policy = r.policy := by
  cases c with
  | reset host =>
    change (r.reset host).2.policy = r.policy
    unfold reset
    split <;> rfl
  | _ => rfl

namespace Refines

protected theorem empty (p : Policy) : (Registry.empty p).Refines p [] where
  policy := rfl
  breaker _ := rfl
  stored _ := by simp [Registry.empty, Assoc.has, Known]

/-- A call is answered by the breaker that its host has for itself. -/
theorem reply_eq (hr : r.Refines p earlier) (c : HostCall) :
    (r.serve c).1 = ownReply p earlier c := by
  obtain ⟨rfl, hbreaker, hstored⟩ := hr
  cases c with
  | acquire host now =>
    simp only [ownReply, ← hbreaker, Registry.serve, Registry.acquire, Prod.map]
  | canExecute host now =>
    simp only [ownReply, ← hbreaker, Registry.serve, Registry.canExecute]
  | success host => rfl
  | failure host now => rfl
  | status host now =>
    simp only [ownReply, ← hbreaker, Registry.serve, Registry.status]
  | reset host =>
    have hreset : (r.reset host).1 = r.breakers.has host := by
      unfold reset
      split
      · next hhas => exact hhas.symm
      · next hnone => exact (Bool.eq_false_iff.mpr hnone).symm
    simp only [ownReply, Registry.serve, Prod.map, hreset, ← hstored, Bool.decide_eq_true]

/-- **A call is answered for its host alone**, and the registry goes on to hold the breakers of all
hosts. -/
theorem serve (hr : r.Refines p earlier) (c : HostCall) :
    (r.serve c).1 = ownReply p earlier c ∧ (r.serve c).2.Refines p (earlier ++ [c]) := by
  refine ⟨hr.reply_eq c, ⟨(policy_serve r c).trans hr.policy, fun h => ?_, fun h => ?_⟩⟩
  · by_cases hh : c.host = h
    · subst hh
      rw [breaker_serve_self, ownBreaker_snoc_self, hr.breaker, hr.policy]
    · rw [breaker_serve_of_ne r hh, ownBreaker_snoc_of_ne p earlier hh, hr.breaker]
  · rw [has_serve_iff, known_snoc_iff, hr.stored]

theorem serveAll (hr : r.Refines p earlier) (cs : List HostCall) :
    (r.serveAll cs).1 = ownReplies p earlier cs := by
  induction cs generalizing r earlier with
  | nil => rfl
  | cons c cs ih =>
    obtain ⟨hreply, hnext⟩ := hr.serve c
    exact congrArg₂ List.cons hreply (ih hnext)

end Refines

end Registry

/-- **The replies to any calls on a registry are those of a breaker for each host** that is never
dropped and receives the calls that name the host; calls on other hosts have no part in them. -/
theorem replies_eq_ownReplies (p : Policy) (cs : List HostCall) :
    ((Registry.empty p).serveAll cs).1 = ownReplies p [] cs ∧
      ∀ earlier c, ownReply p (earlier.filter (·.host = c.host)) c = ownReply p earlier c :=
  ⟨(Registry.Refines.empty p).serveAll cs, ownReply_filter p⟩

end RemoteShell.Circuit
