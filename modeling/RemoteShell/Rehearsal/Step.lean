import RemoteShell.Rehearsal.World
import RemoteShell.Tool

/-!
# Steps of a rehearsal

What a rehearsal does, step by step, and what a step answers.  A service is rehearsed in two forms
side by side: its parts apart, each used directly, and the same parts together in a service that
runs commands.

## Main definitions

* `Side`: the parts apart, or together.
* `Act`, `Step`: one thing to do, and one step, which may do several things side by side.
* `Result`: what a step answers.
-/

namespace RemoteShell.Rehearsal

/-- The parts of a service, apart or together. -/
inductive Side where
  | apart
  | together
  deriving DecidableEq, Repr

/-- A use of a circuit. -/
inductive CircuitUse where
  | acquire
  | canExecute
  | success
  | failure (n : Nat)
  | status
  | reset
  deriving DecidableEq, Repr

/-- A change of a profile. -/
inductive ProfileChange where
  | markFailed (m : Elevation.Method)
  | forgetPassword (m : Elevation.Method)
  | keepPassword (m : Elevation.Method) (password : String)
  | noteVerified (m : Elevation.Method)
  deriving DecidableEq, Repr

/-- Change a profile. -/
def ProfileChange.apply (p : Elevation.Profile) : ProfileChange → Elevation.Profile
  | .markFailed m => p.markFailed m
  | .forgetPassword m => p.forgetPassword m
  | .keepPassword m s => p.keepPassword m s
  | .noteVerified m => p.noteVerified m

/-- An addition to a script.  Rules and the standard reply are replaced if they are given. -/
structure Addition where
  connects : List ScriptedConnect
  replies : List ScriptedReply
  prompts : List (Option String)
  rules : Option (List Rule)
  standard : Option ScriptedReply

/-- A command to run on a target. -/
structure Order where
  target : Target
  command : String
  -- How long the command may take, if not as long as the settings say.
  timeout : Option Duration
  elevate : Bool
  -- When the caller cancels, if it does.
  cancelAfter : Option Duration

/-- One thing to do. -/
inductive Act where
  | sleep (d : Duration)
  | script (a : Addition)
  -- Set variables of the environment, or unset them.
  | env (changes : List (String × Option String))
  | kill (c : ConnId)
  -- A connection never gives a sign of life, or does again.
  | stall (c : ConnId) (on : Bool)
  -- Use the circuit registry that no pool has.
  | registry (u : CircuitUse) (host : String)
  | circuit (s : Side) (u : CircuitUse) (host : String)
  -- Look for a connection; its record may be given a name.
  | get (t : Target) (name : Option String)
  | exec (entry : String) (q : Request)
  | touch (entry : String)
  | invalidate (entry : String)
  | alive (entry : String)
  | entry (entry : String)
  | disconnect (s : Side) (host : String)
  | disconnectAll (s : Side)
  | cleanup (s : Side)
  | list (s : Side)
  | stats (s : Side)
  | execute (o : Order)
  | shutdown
  | tool (name : String) (args : Json)
  | elevate (key : Login) (command : String) (timeout : Duration)
  | clearElevation (s : Side) (host : Option String)
  | capabilities (s : Side) (key : Login)
  -- Find out what the bare shell of a host offers, and keep the profile.
  | detect (host fallback : String) (timeout : Duration)
  | profile (c : ProfileChange)
  | resolve (host user : String) (keyPath : Option String) (hop : Option Hop)
  | loadKey (path host : String)
  | setSecret (name secret : String)
  | deleteSecret (name : String)
  | getSecret (name : String)
  | describeVault

/-- A step of a rehearsal. -/
inductive Step where
  | act (a : Act)
  | par (calls : List (Duration × Step))
  -- From now on close the idle connections again and again; with no time in between, never.
  | sweeper (every : Duration)

/-- The record of a connection as it is looked at at some instant. -/
structure Look where
  record : Pool.Entry
  time : Instant

/-- What a step answers. -/
inductive Result where
  | nothing
  | flag (b : Bool)
  | count (n : Nat)
  | words (s : Option String)
  | acquired (r : Except Fault Unit)
  | circuit (s : Circuit.Status)
  | connection (r : Except Fault (Login × Bool))
  | reply (r : Except Fault Reply)
  | record (l : Look)
  | records (s : Side) (ls : List Look)
  | stats (s : Side) (x : Pool.Stats)
  | outcome (r : Except Fault Execution.Outcome)
  | elevated (r : Except Fault Elevation.Elevated)
  | summary (s : Option Elevation.Summary)
  | detected (r : Except Fault Elevation.Profile)
  | profile (p : Elevation.Profile)
  -- Offers of credentials, and whether compression is asked for.
  | offers (r : Except Fault Credential.Offers) (compression : Bool)
  | key (r : Except Fault Credential.Key)
  | tool (a : Tool.Answer)
  -- The answers of steps taken side by side, and when they came.
  | several (rs : List (Result × Nat))
  | unnamed

/-- How a task of a rehearsal ends. -/
inductive Ending where
  | answered (r : Result)
  | crashed

end RemoteShell.Rehearsal
