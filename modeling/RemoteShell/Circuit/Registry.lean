import RemoteShell.Assoc
import RemoteShell.Circuit.Breaker
import RemoteShell.Fault

/-!
# Circuit registry

The breakers of all hosts.  A breaker is made when its host is first gated or first fails, and a
success drops it again: a closed breaker without failures says nothing.

## Main definitions

* `Registry` with `acquire`, `canExecute`, `success`, `failure`, `status` and `reset`.
-/

namespace RemoteShell.Circuit

/-- The breakers of all hosts, under one policy. -/
structure Registry where
  policy : Policy
  breakers : Assoc String Breaker
  deriving Repr

namespace Registry

/-- A registry without breakers. -/
def empty (p : Policy) : Registry := ⟨p, []⟩

/-- The breaker of a host; an unknown host has a fresh one. -/
def breaker (r : Registry) (host : String) : Breaker := (r.breakers.get? host).getD .fresh

/-- The registry with a breaker for a host. -/
def withBreaker (r : Registry) (host : String) (b : Breaker) : Registry :=
  { r with breakers := r.breakers.put host b }

/-- Let a call to a host go ahead if it may. -/
def acquire (r : Registry) (host : String) (now : Instant) : Except Fault Unit × Registry :=
  let (answer, b) := (r.breaker host).acquire r.policy now
  (answer.mapError (Fault.circuitOpen host), r.withBreaker host b)

/-- May a call to a host go ahead?  Nothing changes. -/
def canExecute (r : Registry) (host : String) (now : Instant) : Bool :=
  ((r.breaker host).canExecute r.policy now).isOk

/-- A call to a host succeeded: its breaker is dropped. -/
def success (r : Registry) (host : String) : Registry :=
  { r with breakers := r.breakers.erase host }

/-- A call to a host failed. -/
def failure (r : Registry) (host : String) (now : Instant) : Registry :=
  r.withBreaker host ((r.breaker host).failure r.policy now)

/-- What operators see of a host. -/
def status (r : Registry) (host : String) (now : Instant) : Status :=
  (r.breaker host).status r.policy host now

/-- Close the circuit of a host by hand; says whether the host had a breaker. -/
def reset (r : Registry) (host : String) : Bool × Registry :=
  if r.breakers.has host then (true, r.withBreaker host .fresh) else (false, r)

end Registry

end RemoteShell.Circuit
