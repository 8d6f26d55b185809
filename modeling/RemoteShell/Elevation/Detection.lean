import RemoteShell.Elevation.Query

/-!
# Detection

Finding out what a login offers for elevation, by up to seven commands that change nothing on the
host.  A probe that does not finish in time counts as one that failed; any other fault ends the
detection.

## Main definitions

* `Probe`, `Probe.order`: the probes in their order.
* `Probe.wanted`: is the probe worth sending?  Nothing more is asked of the superuser, and a tool is
  only tried where it is there.
* `Probe.record`: what an answer says.
* `detect`: the whole detection.
-/

namespace RemoteShell.Elevation

/-- A command that finds out something about a login. -/
inductive Probe where
  | user
  | groups
  | findSudo
  | findDoas
  | findSu
  | trySudo
  | tryDoas
  deriving DecidableEq, Repr

namespace Probe

/-- The probes in their order. -/
def order : List Probe := [.user, .groups, .findSudo, .findDoas, .findSu, .trySudo, .tryDoas]

/-- The command of a probe. -/
def command : Probe → String
  | .user => "whoami"
  | .groups => "groups"
  | .findSudo => "command -v sudo"
  | .findDoas => "command -v doas"
  | .findSu => "command -v su"
  | .trySudo => "sudo -n true"
  | .tryDoas => "doas -n true"

/-- Is the probe worth sending, after what is known? -/
def wanted (q : Probe) (p : Profile) : Bool :=
  !p.isRoot &&
    match q with
    | .trySudo => p.hasSudo
    | .tryDoas => p.hasDoas
    | _ => true

/-- Did the command of a probe succeed?  One that did not finish in time did not. -/
def succeeded (r : Option Reply) : Bool := r.any Reply.success

/-- What a tool says to a user who may not use it at all. -/
def refusals : List String :=
  ["not in the sudoers", "may not run sudo", "not allowed to", "operation not permitted"]

/-- Does a tool say that the user may not use it at all? -/
def refused (r : Option Reply) : Bool :=
  r.any fun r => Text.containsAny (Text.lowercase (r.stdout ++ "\n" ++ r.stderr)) refusals

/-- The user that a successful `whoami` names, else the one who logged in. -/
def userOf (fallback : String) (r : Option Reply) : String :=
  match r.filter Reply.success with
  | none => fallback
  | some r => if Text.isBlankText r.stdout then fallback else Text.trim r.stdout

/-- The groups that `groups` names, without the user's name in front. -/
def groupsOf (user stdout : String) : List String :=
  ((Text.wordsBy (fun c => Text.isBlank c || c == ':') stdout.toList).map String.ofList).filter
    (· ≠ user)

/-- What the answer to a probe says about a login. -/
def record (fallback : String) (q : Probe) (p : Profile) (r : Option Reply) : Profile :=
  match q with
  | .user => .ofUser (userOf fallback r)
  | .groups =>
    match r.filter Reply.success with
    | none => p
    | some r => { p with groups := groupsOf p.user r.stdout }
  | .findSudo => { p with hasSudo := succeeded r }
  | .findDoas => { p with hasDoas := succeeded r }
  | .findSu => { p with hasSu := succeeded r }
  | .trySudo => { p with sudoFree := succeeded r, sudoDenied := !succeeded r && refused r }
  | .tryDoas => { p with doasFree := succeeded r, doasDenied := !succeeded r && refused r }

end Probe

/-- The answer to a probe: a command that does not finish in time gives none. -/
def probeAnswer : Except Fault Reply → Except Fault (Option Reply)
  | .ok r => .ok (some r)
  | .error (.commandTimeout ..) => .ok none
  | .error f => .error f

/-- Send the probes that are worth sending. -/
def detectWith (fallback : String) (timeout : Duration) :
    List Probe → Profile → Talk (Except Fault Profile)
  | [], p => .done (.ok p)
  | q :: qs, p =>
    if q.wanted p then
      .ask (.run (.probe q.command timeout)) fun r =>
        match probeAnswer r with
        | .error f => .done (.error f)
        | .ok r => detectWith fallback timeout qs (q.record fallback p r)
    else detectWith fallback timeout qs p

/-- Find out what a login offers; the fallback is the user who logged in. -/
def detect (fallback : String) (timeout : Duration) : Talk (Except Fault Profile) :=
  detectWith fallback timeout Probe.order (.ofUser "")

end RemoteShell.Elevation
