import RemoteShell.Fault

/-!
# Scripts

What a scripted network does: how its hosts take connections and how they reply to commands.  A
queue of replies is used up first; then the first rule that fits a command replies; then a
standard reply; and a host without any of these knows no command.

## Main definitions

* `ScriptedFault`, `ScriptedReply`, `ScriptedConnect`: what happens when a script is followed.
* `Rule`, `Rule.fits`: a reply to some commands, which may be given a limited number of times.
* `Playbook`, `Playbook.next`: all scripted replies, and the reply to a command.
-/

namespace RemoteShell.Rehearsal

open Elevation (Attempt)

/-- A fault of a script.  A host that is left out is the one where the fault strikes. -/
structure ScriptedFault where
  kind : FaultKind
  host : Option String
  reason : String
  user : String
  path : String
  limit : Duration
  -- The rest of a cool-down.
  remaining : Duration
  interactive : Bool
  -- The methods of elevation that were passed over.
  attempts : List Attempt
  deriving DecidableEq, Repr

/-- The fault of a script, as it strikes on a host. -/
def ScriptedFault.strike (f : ScriptedFault) (host : String) : Fault :=
  let host := f.host.getD host
  match f.kind with
  | .invalidInput => .invalidInput f.reason
  | .connectionTimeout => .connectionTimeout host f.limit
  | .unreachable => .unreachable host f.reason
  | .connectionLost => .connectionLost host f.reason
  | .authenticationFailed => .authenticationFailed f.user host f.reason f.interactive
  | .key => .key f.path f.reason
  | .protocol => .protocol f.reason
  | .circuitOpen => .circuitOpen host f.remaining
  | .commandTimeout => .commandTimeout host f.limit
  | .elevationUnavailable => .elevationUnavailable host f.attempts
  | .cancelled => .cancelled

/-- How a command ends, and how long that takes. -/
structure ScriptedReply where
  delay : Duration
  fault : Option ScriptedFault
  reply : Reply
  deriving DecidableEq, Repr

/-- A host that knows no command. -/
def ScriptedReply.unknown : ScriptedReply := ⟨.zero, none, ⟨"", "sh: command not found", 127⟩⟩

/-- How a connection is taken, and how it behaves. -/
structure ScriptedConnect where
  delay : Duration
  fault : Option ScriptedFault
  probeDelay : Duration
  closeDelay : Duration
  -- Does the connection never give a sign of life?
  stalled : Bool
  deriving DecidableEq, Repr

/-- A connection that is made at once. -/
def ScriptedConnect.plain : ScriptedConnect := ⟨.zero, none, .zero, .zero, false⟩

/-! ## Rules -/

/-- How the text of a rule is compared with a command. -/
inductive Comparison where
  | is
  | has
  | starts
  deriving DecidableEq, Repr

/-- A reply to the commands that fit. -/
structure Rule where
  text : String
  comparison : Comparison
  -- The input that a request must come with, if it matters.
  stdin : Option String
  -- How often the rule may still reply, if that is limited.
  times : Option Nat
  reply : ScriptedReply
  deriving DecidableEq, Repr

namespace Rule

/-- Does the text of a rule fit a command? -/
def fitsCommand (r : Rule) (command : String) : Bool :=
  match r.comparison with
  | .is => r.text == command
  | .has => Text.contains command r.text
  | .starts => Text.startsWith command r.text

/-- May the rule reply to a request? -/
def fits (r : Rule) (q : Request) : Bool :=
  r.fitsCommand q.command && (r.stdin.isNone || r.stdin == q.stdin) && r.times != some 0

/-- The rule after it has replied once more. -/
def used (r : Rule) : Rule := { r with times := r.times.map (· - 1) }

/-- The reply of the first rule that fits, and the rules after it has replied. -/
def first? (q : Request) : List Rule → Option (ScriptedReply × List Rule)
  | [] => none
  | r :: rs =>
    if r.fits q then some (r.reply, r.used :: rs)
    else (first? q rs).map fun (reply, rs) => (reply, r :: rs)

end Rule

/-- All scripted replies. -/
structure Playbook where
  -- Replies to the next commands, whatever they are.
  queue : List ScriptedReply
  -- Replies to the commands that fit.
  rules : List Rule
  -- The reply to all other commands.
  standard : Option ScriptedReply
  deriving DecidableEq, Repr

/-- The reply to a request. -/
def Playbook.next (b : Playbook) (q : Request) : ScriptedReply × Playbook :=
  match b.queue with
  | r :: rest => (r, { b with queue := rest })
  | [] =>
    match Rule.first? q b.rules with
    | some (r, rules) => (r, { b with rules := rules })
    | none => (b.standard.getD .unknown, b)

end RemoteShell.Rehearsal
