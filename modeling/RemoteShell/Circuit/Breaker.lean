import RemoteShell.Time

/-!
# Circuit breaker

A breaker counts the failures of one host since its last success.  When they reach the threshold
the circuit opens: calls are refused until the cool-down has passed since the latest failure.
Then the circuit is half open: one call is let through as a probe, and others are refused while it
runs.  A success closes the circuit and a failure opens it again.  A probe that never reports is
given up after another cool-down.

No clock is read: every operation is told the instant of its call, and a clock that goes backwards
counts as standing still.

## Main definitions

* `Policy`, `Breaker`, `State`: settings, stored state and the state that shows.
* `Breaker.canExecute`, `Breaker.acquire`: may a call go ahead?
* `Breaker.success`, `Breaker.failure`: what a finished call reports.
* `Status`: what operators see.
-/

namespace RemoteShell.Circuit

/-- The settings of all breakers. -/
structure Policy where
  -- How many failures in a row open a circuit.
  threshold : UInt32
  cooldown : Duration
  deriving DecidableEq, Repr

/-- The state of a circuit. -/
inductive State where
  | closed
  | opened
  | halfOpen
  deriving DecidableEq, Repr

namespace State

/-- The name of a state. -/
def name : State → String
  | .closed => "CLOSED"
  | .opened => "OPEN"
  | .halfOpen => "HALF_OPEN"

/-- The state of a name. -/
def ofName? (s : String) : Option State :=
  [State.closed, .opened, .halfOpen].find? (·.name == s)

end State

/-- The breaker of one host. -/
structure Breaker where
  -- The failures since the last success, as far as 32 bits can count.
  failures : UInt32
  -- When the circuit opened or was opened again, if it is not closed.
  openedAt : Option Instant
  -- When the latest probe was let through, if no result came since.
  probeAt : Option Instant
  deriving DecidableEq, Repr

/-- What operators see of a circuit. -/
structure Status where
  host : String
  state : State
  failures : UInt32
  -- The whole seconds until a probe is let through; zero unless the circuit is open.
  remainingSecs : UInt64
  deriving DecidableEq, Repr

namespace Breaker

/-- A breaker that has seen nothing. -/
def fresh : Breaker := ⟨0, none, none⟩

/-- The state at an instant. -/
def state (p : Policy) (b : Breaker) (now : Instant) : State :=
  match b.openedAt with
  | none => .closed
  | some t => if now.since t < p.cooldown then .opened else .halfOpen

/-- The rest of the cool-down at an instant. -/
def remaining (p : Policy) (b : Breaker) (now : Instant) : Duration :=
  match b.openedAt with
  | none => .zero
  | some t => p.cooldown.minus (now.since t)

/-- Is a probe under way that has not been given up? -/
def probing (p : Policy) (b : Breaker) (now : Instant) : Bool :=
  b.probeAt.any fun t => now.since t < p.cooldown

/-- May a call go ahead?  If not, the time until one may; zero while a probe is under way. -/
def canExecute (p : Policy) (b : Breaker) (now : Instant) : Except Duration Unit :=
  match b.state p now with
  | .closed => .ok ()
  | .opened => .error (b.remaining p now)
  | .halfOpen => if b.probing p now then .error .zero else .ok ()

/-- Let a call go ahead if it may; behind a half-open circuit it becomes the probe. -/
def acquire (p : Policy) (b : Breaker) (now : Instant) : Except Duration Unit × Breaker :=
  match b.canExecute p now with
  | .error d => (.error d, b)
  | .ok () =>
    (.ok (), if b.state p now = .halfOpen then { b with probeAt := some now } else b)

/-- One failure more, as far as 32 bits can count. -/
def countUp (n : UInt32) : UInt32 := if n = 0xFFFFFFFF then n else n + 1

/-- A call succeeded: all is forgotten. -/
def success (_ : Breaker) : Breaker := fresh

/-- A call failed. -/
def failure (p : Policy) (b : Breaker) (now : Instant) : Breaker :=
  let n := countUp b.failures
  { failures := n
    -- A circuit that is not closed stays so, and its cool-down begins anew.
    openedAt := if b.openedAt.isSome ∨ p.threshold ≤ n then some now else none
    probeAt := none }

/-- What operators see at an instant. -/
def status (p : Policy) (b : Breaker) (host : String) (now : Instant) : Status where
  host := host
  state := b.state p now
  failures := b.failures
  remainingSecs :=
    match b.state p now with
    | .opened => UInt64.ofNat (b.remaining p now).secs
    | _ => 0

end Breaker

end RemoteShell.Circuit
