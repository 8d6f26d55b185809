import RemoteShell.Cells
import RemoteShell.Elevation.Ascent
import RemoteShell.Wait

/-!
# Elevation engine

The profiles of all logins, each behind a lock: elevation on one login is done by one call at a
time, so that its password is asked for once even when several commands need it.

A call takes the lock of its login, reads the profile, and follows the dialogue of `ascend`; what
the dialogue wants to keep is written to the profile at once, so that nothing learned is lost when
the caller gives the call up.

## Main definitions

* `Engine` with `Engine.clear` and `Engine.summary?`.
* `Climb`: a call; `Climb.start`, `Climb.resume`, `Climb.abandon`.
-/

namespace RemoteShell.Elevation

/-- The profiles of all logins. -/
structure Engine where
  settings : ElevationSettings
  -- The profiles; a login has none until its detection is complete.
  profiles : Cells Login (Option Profile)
  deriving Repr

namespace Engine

/-- An engine that knows nothing. -/
def empty (s : ElevationSettings) : Engine := ⟨s, .empty⟩

/-- Forget the logins of a host, or all of them; says how many there were.  Stored passwords are
kept. -/
def clear (e : Engine) (host : Option String) : Nat × Engine :=
  let kept := e.profiles.table.filter fun k => host.any fun h => k.1.host ≠ h
  (e.profiles.table.length - kept.length, { e with profiles := { e.profiles with table := kept } })

/-- What is known of a login, if its detection is complete and no call is busy with it. -/
def summary? (e : Engine) (k : Login) : Option Summary :=
  (e.profiles.current? k).bind fun c =>
    if c.holder.isSome then none else c.value.map Profile.summary

end Engine

namespace Climb

/-- What a call of elevation waits for. -/
inductive Phase where
  | queued
  | talking (t : Talk Ending)

end Climb

/-- A call of elevation. -/
structure Climb where
  caller : CallId
  key : Login
  command : String
  timeout : Duration
  -- The connection that it runs on; none for a bare shell.
  on : Option ConnId
  cell : CellId
  phase : Climb.Phase

namespace Climb

/-- How a call ends for its caller: with a result, or with output that cannot be cleaned. -/
inductive Result where
  | finished (r : Except Fault Elevated)
  | crashed

/-- What a call waits for. -/
def wait (c : Climb) : Wait :=
  match c.phase with
  | .queued => .turn
  | .talking (.done _) => .turn
  | .talking (.ask q _) => q.wait c.on

/-- The connection that a call runs a command on right now. -/
def running? (c : Climb) : Option ConnId :=
  match c.phase with
  | .talking (.ask (.run _) _) => c.on
  | _ => none

/-- Has the turn of the call come? -/
def admitted (c : Climb) (e : Engine) : Bool := e.profiles.admits c.cell c.caller

/-- Give back the lock of a call. -/
def release (c : Climb) (e : Engine) : Engine :=
  { e with profiles := e.profiles.release c.cell c.caller }

/-- Drop the cell of a login whose detection is not complete, if no call uses it. -/
def dropUndetected (e : Engine) (k : Login) : Engine :=
  { e with profiles := e.profiles.retire k fun x => x.holder.isNone && x.value.isNone }

/-- The call ends. -/
def finish (c : Climb) (x : Ending) (e : Engine) : Engine × Progress Climb Result :=
  match x with
  | .finished r => (c.release e, .ends (.finished r))
  | .crashed => (c.release e, .ends .crashed)
  | .undetected f => (dropUndetected (c.release e) c.key, .ends (.finished (.error f)))

/-- Follow a dialogue up to the next question for others; profiles are kept on the way. -/
def follow (c : Climb) : Talk Ending → Engine → Engine × Progress Climb Result
  | .done x, e => c.finish x e
  -- Keeping a profile is a matter of the engine; all else is asked of others.
  | .ask (.keep p) next, e =>
    c.follow (next ()) { e with profiles := e.profiles.setValue c.cell (some p) }
  | .ask q next, e => (e, .waits { c with phase := .talking (.ask q next) })

/-- The turn of a call has come: it reads the profile and begins its dialogue. -/
def begin (c : Climb) (e : Engine) : Engine × Progress Climb Result :=
  c.follow (ascend e.settings c.key c.command c.timeout (e.profiles.value? c.cell).join) e

/-- A call begins: it asks for the lock of its login. -/
def start (caller : CallId) (key : Login) (command : String) (timeout : Duration)
    (on : Option ConnId) (e : Engine) : Engine × Progress Climb Result :=
  let (cell, profiles) := e.profiles.openCell key none
  let e := { e with profiles := profiles.enter cell caller }
  let c : Climb := ⟨caller, key, command, timeout, on, cell, .queued⟩
  if c.admitted e then c.begin e else (e, .waits c)

/-- The call goes on with the answer to what it waits for. -/
def resume (c : Climb) (a : Answer) (e : Engine) : Engine × Progress Climb Result :=
  match c.phase, a with
  | .queued, .admitted => c.begin e
  | .talking (.ask q next), a =>
    match q.take? a with
    | none => (e, .waits c)
    | some x => c.follow (next x) e
  | _, _ => (e, .waits c)

/-- The caller gives the call up: its lock and its place in the queue are free again. -/
def abandon (c : Climb) (e : Engine) : Engine := c.release e

end Climb

end RemoteShell.Elevation
