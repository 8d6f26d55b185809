import RemoteShell.Backoff
import RemoteShell.Hub

/-!
# Execution

Running a command on a target.  A call is refused before anything is touched if its command, its
target or its time limit is wrong, if it is cancelled already, or if the circuit of its host is
open.  Otherwise it gets a connection and runs the command; after a transient fault the connection
is dropped, and after a wait the call tries again.  A command that is denied is handed to
elevation on the same connection, once.  The outcome is reported to the circuit of the host; a
cancelled call reports nothing.

## Main definitions

* `Execution`, `Execution.Phase`: a call, and what it waits for.
* `Execution.Task`: what is asked for; `Execution.Outcome`: a successful result.
* `Execution.start`, `Execution.resume`, `Execution.cancel`.
-/

namespace RemoteShell

namespace Execution

/-- What is asked for. -/
structure Task where
  target : Target
  command : String
  timeout : Duration
  elevate : Bool
  retry : RetrySettings

/-- The reply to a command, with the method that elevated it and the number of tries. -/
structure Outcome where
  reply : Reply
  method : Option Elevation.Method
  attempts : Nat
  deriving DecidableEq, Repr

/-- How a call ends: with a result, or on output that cannot be cleaned. -/
inductive Result where
  | finished (r : Except Fault Outcome)
  | crashed

/-- What a call waits for. -/
inductive Phase where
  | getting (g : Pool.Get)
  | running (c : ConnId)
  -- The end of the connection on which a try failed.
  | discarding (r : Pool.Removal) (f : Fault)
  | backingOff
  -- Elevation on the connection on which the command was denied.
  | elevating (c : ConnId) (climb : Elevation.Climb)
  -- The end of the connection on which elevation failed.
  | dropping (r : Pool.Removal) (f : Fault)

end Execution

/-- A call that runs a command on a target. -/
structure Execution where
  caller : CallId
  task : Execution.Task
  attempts : Nat
  delay : Duration
  phase : Execution.Phase

namespace Execution

/-- Why a call is refused before anything is touched. -/
def refusal (t : Task) (cancelled : Bool) : Except Fault Unit := do
  if Text.isBlankText t.command then
    throw (.invalidInput "command cannot be empty")
  t.target.validate
  if t.timeout.isZero then
    throw (.invalidInput "timeout must be greater than zero")
  if cancelled then
    throw .cancelled

/-- The request of a task. -/
def Task.request (t : Task) : Request := .plain t.command t.timeout

/-- What a call waits for. -/
def wait (x : Execution) (h : Hub) : Wait :=
  match x.phase with
  | .getting g => g.wait h.pool
  | .running c => .exec (some c) x.task.request
  | .discarding r _ | .dropping r _ => r.wait
  | .backingOff => .pause x.delay
  | .elevating _ climb => climb.wait

/-- Has the turn of a call come that waits for a lock? -/
def admitted (x : Execution) (h : Hub) : Bool :=
  match x.phase with
  | .getting g => g.admitted h.pool
  | .elevating _ climb => climb.admitted h.elevation
  | _ => false

/-- Report a result to the circuit of the host: a reply, and the lack of a method of elevation,
show that the host is well. -/
def report (host : String) (r : Except Fault Outcome) (now : Instant) (h : Hub) : Hub :=
  match r with
  | .ok _ | .error (.elevationUnavailable ..) =>
    { h with circuits := h.circuits.success host }
  | .error f =>
    if f.blamesHost then { h with circuits := h.circuits.failure host now } else h

/-- The call ends and reports its result. -/
def finish (x : Execution) (r : Except Fault Outcome) (now : Instant) (h : Hub) :
    Hub × Progress Execution Result :=
  (report x.task.target.host r now h, .ends (.finished r))

/-- The call goes on to wait for something else. -/
def goOn (x : Execution) (phase : Phase) (h : Hub) : Hub × Progress Execution Result :=
  (h, .waits { x with phase := phase })

/-- A try failed: wait for the next one, or end if the fault is not transient or there have been
enough tries. -/
def retry (x : Execution) (f : Fault) (now : Instant) (h : Hub) :
    Hub × Progress Execution Result :=
  if f.transient && decide (x.attempts < x.task.retry.maxRetries) then x.goOn .backingOff h
  else x.finish (.error f) now h

/-- A command on a connection failed: after a transient fault the connection is dropped first. -/
def discard (x : Execution) (c : ConnId) (f : Fault) (now : Instant) (h : Hub) :
    Hub × Progress Execution Result :=
  if f.transient then
    match h.onPool (Pool.Removal.invalidate c) with
    | (h, .waits r) => x.goOn (.discarding r f) h
    | (h, .ends _) => x.retry f now h
  else x.retry f now h

/-- Elevation failed: after a transient fault the connection is dropped first. -/
def drop (x : Execution) (c : ConnId) (f : Fault) (now : Instant) (h : Hub) :
    Hub × Progress Execution Result :=
  if f.transient then
    match h.onPool (Pool.Removal.invalidate c) with
    | (h, .waits r) => x.goOn (.dropping r f) h
    | (h, .ends _) => x.finish (.error f) now h
  else x.finish (.error f) now h

/-- Follow a step of elevation.  A command that starts on the connection is a use of it. -/
def afterClimb (x : Execution) (c : ConnId) (now : Instant) :
    Hub × Progress Elevation.Climb Elevation.Climb.Result → Hub × Progress Execution Result
  | (h, .waits climb) => x.goOn (.elevating c climb) (h.touch climb.running? now)
  | (h, .ends .crashed) => (h, .ends .crashed)
  | (h, .ends (.finished (.error f))) => x.drop c f now h
  | (h, .ends (.finished (.ok e))) => x.finish (.ok ⟨e.reply, e.method, x.attempts⟩) now h

/-- The command was run: a reply that says it was denied goes to elevation. -/
def afterReply (x : Execution) (c : ConnId) (key : Login) (r : Reply) (now : Instant) (h : Hub) :
    Hub × Progress Execution Result :=
  if x.task.elevate && Elevation.denied r then
    x.afterClimb c now
      (h.onElevation
        (Elevation.Climb.start x.caller key x.task.command x.task.timeout (some c)))
  else x.finish (.ok ⟨r, none, x.attempts⟩) now h

/-- Follow a step of the search for a connection.  A command that starts is a use of it. -/
def afterGet (x : Execution) (now : Instant) :
    Hub × Progress Pool.Get Pool.Get.Result → Hub × Progress Execution Result
  | (h, .waits g) => x.goOn (.getting g) h
  | (h, .ends (.error f)) => x.retry f now h
  | (h, .ends (.ok c)) => x.goOn (.running c) (h.touch (some c) now)

/-- Begin a try. -/
def tryOnce (x : Execution) (now : Instant) (h : Hub) : Hub × Progress Execution Result :=
  let x := { x with attempts := x.attempts + 1 }
  x.afterGet now (h.onPool (Pool.Get.start x.caller x.task.target now))

/-- A call begins. -/
def start (caller : CallId) (t : Task) (cancelled : Bool) (now : Instant) (h : Hub) :
    Hub × Progress Execution Result :=
  match refusal t cancelled with
  -- A refused call is none of the host's business: no circuit hears of it.
  | .error f => (h, .ends (.finished (.error f)))
  | .ok () =>
    match h.circuits.acquire t.target.host now with
    | (.error f, circuits) => ({ h with circuits := circuits }, .ends (.finished (.error f)))
    | (.ok (), circuits) =>
      tryOnce ⟨caller, t, 0, t.retry.retryDelay, .backingOff⟩ now { h with circuits := circuits }

/-- The call goes on with the answer to what it waits for. -/
def resume (x : Execution) (a : Answer) (now : Instant) (h : Hub) :
    Hub × Progress Execution Result :=
  match x.phase, a with
  | .getting g, a => x.afterGet now (h.onPool (g.resume a now))
  | .running c, .replied r =>
    -- The end of a command is a use of the connection, even if it failed.
    let h := h.touch (some c) now
    match r with
    | .error f => x.discard c f now h
    | .ok r => x.afterReply c x.task.target.login r now h
  | .discarding r f, a =>
    match h.onPool (r.resume a) with
    | (h, .waits r) => x.goOn (.discarding r f) h
    | (h, .ends _) => x.retry f now h
  -- The first wait is as long as the settings say; those after it grow.
  | .backingOff, .done =>
    tryOnce { x with delay := nextDelay x.task.retry x.delay } now h
  | .elevating c climb, a =>
    x.afterClimb c now ((h.touch climb.running? now).onElevation (climb.resume a))
  | .dropping r f, a =>
    match h.onPool (r.resume a) with
    | (h, .waits r) => x.goOn (.dropping r f) h
    | (h, .ends _) => x.finish (.error f) now h
  | _, _ => (h, .waits x)

/-- The call is given up where it stands: it frees its locks, and what it waits for goes on or
stops without it. -/
def abandon (x : Execution) (h : Hub) : Hub :=
  match x.phase with
  | .getting g => { h with pool := g.abandon h.pool }
  | .elevating _ climb => { h with elevation := climb.abandon h.elevation }
  | _ => h

/-- The call is cancelled: it is given up and reports nothing. -/
def cancel (x : Execution) (h : Hub) : Hub × Result :=
  (x.abandon h, .finished (.error .cancelled))

end Execution

end RemoteShell
