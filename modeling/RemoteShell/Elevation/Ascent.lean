import RemoteShell.Elevation.Detection
import RemoteShell.Setting
import RemoteShell.Target
import RemoteShell.Terminal
import RemoteShell.Vault

/-!
# Running a command elevated

The methods are tried in their order.  One that the host does not offer or that failed before is
passed over; one that asks for a password gets it from the profile, else from the vault, else from
the operator.  A method that has not been checked yet runs `whoami` first, and only the
superuser's name in its answer lets it run the command.  The command is run once, by the first
method that gets so far, and its reply is the result whatever it says.

## Main definitions

* `denied`: did a command fail for want of rights?
* `passwordFor`, `verify`, `runWith`, `tryMethods`: the steps for one method, and the loop.
* `ascend`: the whole call, detection included.
-/

namespace RemoteShell.Elevation

/-- What a command says that fails for want of rights. -/
def denialWords : List String :=
  ["permission denied", "operation not permitted", "must be root", "must be run as root",
    "are you root", "requires root", "only root can", "need to be root", "access denied",
    "interactive authentication required"]

/-- Did a command fail for want of rights? -/
def denied (r : Reply) : Bool :=
  !r.success && Text.containsAny (Text.lowercase (r.stderr ++ "\n" ++ r.stdout)) denialWords

/-- The reply to an elevated command, with the method that ran it; none for the superuser. -/
structure Elevated where
  reply : Reply
  method : Option Method
  deriving DecidableEq, Repr

/-- How a call of elevation ends. -/
inductive Ending where
  | finished (r : Except Fault Elevated)
  -- With a fault of the detection, before there was a profile.
  | undetected (f : Fault)
  | crashed

/-- What an elevation tool says to a wrong password. -/
def rejectionWords : List String :=
  ["incorrect password", "sorry, try again", "authentication failure", "authentication failed",
    "a password is required"]

/-- Does a line come from the tool itself and speak of a wrong password? -/
def rejectsPassword (m : Method) (line : List Char) : Bool :=
  let lower := String.ofList (Text.lowered (Text.trimmed line))
  Text.startsWith lower (m.program ++ ":") && Text.containsAny lower rejectionWords

/-- Did the tool itself reject the password?  On a terminal its words are in the output. -/
def passwordRejected (m : Method) (r : Reply) : Bool :=
  (Text.lines (if m.onTerminal then r.stdout else r.stderr).toList).any (rejectsPassword m)

/-- A reply with the prompts of the terminal taken out, if the method runs on one; nothing when
that is not possible. -/
def cleanedReply? (m : Method) (r : Reply) : Option Reply :=
  if m.onTerminal then (Terminal.cleaned? r.stdout).map fun s => { r with stdout := s }
  else some r

/-- The name under which the password of a method is stored. -/
def secretName (key : Login) (m : Method) (user : String) : String :=
  Vault.passwordOf ((m.passwordKind?.map PasswordKind.space).getD "none") user key.host key.port

/-- The question for the password of a method. -/
def promptText (key : Login) (m : Method) (user : String) : String :=
  match m with
  | .su => "Enter root password for su on " ++ key.host ++ ":"
  | _ => "Enter password for " ++ user ++ "@" ++ key.host ++ " (" ++ m.name ++ "):"

/-- The password that a method asks for: none if it asks for none, else the one in the profile,
else the stored one, else what the operator says. -/
def passwordFor (key : Login) (p : Profile) (m : Method) :
    Talk (Except Outcome (Option String)) :=
  if m.needsPassword then
    match p.passwords.get? m with
    | some s => .done (.ok (some s))
    | none => do
      match ← Talk.fetch (secretName key m p.user) with
      | some s => return .ok (some s)
      | none =>
        match ← Talk.prompt (promptText key m p.user) with
        | some s => return if s.isEmpty then .error .declined else .ok (some s)
        | none => return .error .declined
  else .done (.ok none)

/-- What the check of a method says. -/
inductive Verdict where
  | trusted (p : Profile)
  | failed (p : Profile) (o : Outcome)
  | broken (f : Fault)
  -- The answer cannot be read.
  | unreadable

/-- What the reply to the check says: is the user now the superuser? -/
def checkReply (m : Method) : Except Fault Reply → Option (Except Fault (Option Outcome))
  | .error (.commandTimeout ..) => some (.ok (some .timedOut))
  | .error f => some (.error f)
  | .ok r =>
    let refusal := if m.needsPassword then Outcome.wrongPassword else .rejected
    if r.success then
      (cleanedReply? m r).map fun r =>
        .ok (if Text.trim r.stdout == "root" then none else some refusal)
    else some (.ok (some refusal))

/-- Check a method by running `whoami` with it.  A method that fails is marked and its stored
password deleted; one that passes is noted and its password kept and stored. -/
def verify (limit : Duration) (key : Login) (p : Profile) (m : Method)
    (password : Option String) : Talk Verdict := do
  match checkReply m (← Talk.run (.check m password limit)) with
  | none => return .unreadable
  | some (.error f) => return .broken f
  | some (.ok (some o)) =>
    -- The mark is kept first: it must not be lost when the call is given up meanwhile.
    let p := p.markFailed m
    Talk.keep p
    if m.needsPassword then
      Talk.erase (secretName key m p.user)
    return .failed p o
  | some (.ok none) =>
    let p := p.trust m password
    Talk.keep p
    match password with
    | none => pure ()
    | some s => Talk.store (secretName key m p.user) s
    return .trusted p

/-- Run the command with a method that has been checked.  A password that the tool itself rejects
is forgotten, so that the next call checks again. -/
def runWith (key : Login) (p : Profile) (m : Method) (password : Option String)
    (command : String) (timeout : Duration) : Talk Ending := do
  match ← Talk.run (.elevated m password command timeout) with
  | .error f => return .finished (.error f)
  | .ok raw =>
    match cleanedReply? m raw with
    | none => return .crashed
    | some r =>
      if password.isSome && !r.success && passwordRejected m r then
        Talk.keep (p.forgetPassword m)
        Talk.erase (secretName key m p.user)
      return .finished (.ok ⟨r, some m⟩)

/-- Try the methods of a list in turn; `passed` are those passed over so far. -/
def tryMethods (limit : Duration) (key : Login) (command : String) (timeout : Duration) :
    List Method → Profile → List Attempt → Talk Ending
  | [], _, passed => .done (.finished (.error (.elevationUnavailable key.host passed)))
  | m :: ms, p, passed =>
    if !p.offers m then
      tryMethods limit key command timeout ms p (passed ++ [⟨m, .unavailable⟩])
    else if p.failed.contains m then
      tryMethods limit key command timeout ms p (passed ++ [⟨m, .previouslyFailed⟩])
    else
      (passwordFor key p m).bind fun
        | .error o => tryMethods limit key command timeout ms p (passed ++ [⟨m, o⟩])
        | .ok password =>
          -- A method that passed its check earlier is trusted.
          if p.verified.contains m then runWith key p m password command timeout
          else
            (verify limit key p m password).bind fun
              | .unreadable => .done .crashed
              | .broken f => .done (.finished (.error f))
              | .failed p o => tryMethods limit key command timeout ms p (passed ++ [⟨m, o⟩])
              | .trusted p => runWith key p m password command timeout

/-- Run a command elevated on a login whose profile is known. -/
def ascendFrom (s : ElevationSettings) (key : Login) (command : String) (timeout : Duration)
    (p : Profile) : Talk Ending :=
  if p.isRoot then
    (Talk.run (.plain command timeout)).bind fun
      | .error f => .done (.finished (.error f))
      | .ok r => .done (.finished (.ok ⟨r, none⟩))
  else tryMethods s.verifyTimeout key command timeout Method.order p []

/-- Run a command elevated; a login without a profile is probed first. -/
def ascend (s : ElevationSettings) (key : Login) (command : String) (timeout : Duration)
    (profile : Option Profile) : Talk Ending :=
  match profile with
  | some p => ascendFrom s key command timeout p
  | none =>
    (detect key.user s.detectTimeout).bind fun
      | .error f => .done (.undetected f)
      | .ok p => .ask (.keep p) fun _ => ascendFrom s key command timeout p

end RemoteShell.Elevation
