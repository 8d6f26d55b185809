import RemoteShell.Elevation.Method
import RemoteShell.Text.Basic
import RemoteShell.Text.Case

/-!
# Faults

Everything that can go wrong, as causes.  Two questions about a fault steer the service: may the
call be tried again (`Fault.transient`), and does it say something about the health of the host
(`Fault.blamesHost`)?

## Main definitions

* `Fault`, `FaultKind`: the causes and their kinds.
* `Fault.message`: a fault in words.
* `Fault.classify`: the fault behind a message of the transport, found by the words in it.
-/

namespace RemoteShell

open Elevation (Attempt)

/-- The kind of a fault. -/
inductive FaultKind where
  | invalidInput | connectionTimeout | unreachable | connectionLost | authenticationFailed | key
  | protocol | circuitOpen | commandTimeout | elevationUnavailable | cancelled
  deriving DecidableEq, Repr

namespace FaultKind

/-- All kinds. -/
def all : List FaultKind :=
  [.invalidInput, .connectionTimeout, .unreachable, .connectionLost, .authenticationFailed, .key,
    .protocol, .circuitOpen, .commandTimeout, .elevationUnavailable, .cancelled]

/-- The name of a kind. -/
def name : FaultKind → String
  | .invalidInput => "invalid_input"
  | .connectionTimeout => "connection_timeout"
  | .unreachable => "unreachable"
  | .connectionLost => "connection_lost"
  | .authenticationFailed => "authentication_failed"
  | .key => "key"
  | .protocol => "protocol"
  | .circuitOpen => "circuit_open"
  | .commandTimeout => "command_timeout"
  | .elevationUnavailable => "elevation_unavailable"
  | .cancelled => "cancelled"

/-- The kind of a name. -/
def ofName? (s : String) : Option FaultKind := all.find? (·.name == s)

end FaultKind

/-- What went wrong. -/
inductive Fault where
  | invalidInput (reason : String)
  | connectionTimeout (host : String) (limit : Duration)
  | unreachable (host reason : String)
  | connectionLost (host reason : String)
  -- The host refused the credentials; `interactive` when the user was asked for them.
  | authenticationFailed (user host reason : String) (interactive : Bool)
  | key (path reason : String)
  | protocol (reason : String)
  | circuitOpen (host : String) (remaining : Duration)
  | commandTimeout (host : String) (limit : Duration)
  | elevationUnavailable (host : String) (attempts : List Attempt)
  | cancelled
  deriving DecidableEq, Repr

namespace Fault

/-- The kind of a fault. -/
def kind : Fault → FaultKind
  | .invalidInput .. => .invalidInput
  | .connectionTimeout .. => .connectionTimeout
  | .unreachable .. => .unreachable
  | .connectionLost .. => .connectionLost
  | .authenticationFailed .. => .authenticationFailed
  | .key .. => .key
  | .protocol .. => .protocol
  | .circuitOpen .. => .circuitOpen
  | .commandTimeout .. => .commandTimeout
  | .elevationUnavailable .. => .elevationUnavailable
  | .cancelled => .cancelled

/-- The methods of elevation that were passed over, in words. -/
def attemptsText : List Attempt → String
  | [] => "no methods detected"
  | as => ", ".intercalate (as.map Attempt.text)

/-- A fault in words. -/
def message : Fault → String
  | .invalidInput reason => "Invalid input: " ++ reason
  | .connectionTimeout host limit =>
    "Connection to " ++ host ++ " timed out after " ++ limit.text
  | .unreachable host reason => "Host " ++ host ++ " unreachable: " ++ reason
  | .connectionLost host reason => "Connection to " ++ host ++ " lost: " ++ reason
  | .authenticationFailed user host reason _ =>
    "Authentication failed for " ++ user ++ "@" ++ host ++ ": " ++ reason
  | .key path reason => "SSH key error (" ++ path ++ "): " ++ reason
  | .protocol reason => "SSH protocol error: " ++ reason
  | .circuitOpen host remaining =>
    "Circuit open for " ++ host ++ ": too many recent failures, retry in " ++
      toString remaining.secs ++ "s"
  | .commandTimeout host limit =>
    "Command on " ++ host ++ " timed out after " ++ limit.text ++ "; it may have partially run"
  | .elevationUnavailable host attempts =>
    "No elevation method available on " ++ host ++ " (" ++ attemptsText attempts ++
      "). Clear the elevation cache to retry failed methods"
  | .cancelled => "Operation cancelled"

/-- May the same call succeed when it is tried again on a new connection? -/
def transient : Fault → Bool
  | .connectionTimeout .. | .unreachable .. | .connectionLost .. => true
  | _ => false

/-- Does the fault say something about the health of the host? -/
def blamesHost : Fault → Bool
  | .invalidInput .. | .circuitOpen .. | .cancelled | .elevationUnavailable .. => false
  | _ => true

/-! ## Faults behind messages -/

/-- Words of a refused authentication. -/
def authenticationWords : List String :=
  ["authentication failed", "password authentication failed", "key authentication failed",
    "agent authentication failed", "permission denied", "publickey", "auth fail",
    "no authentication", "all authentication methods failed"]

/-- Words of a connection that was not made in time. -/
def timeoutWords : List String := ["connection timed out", "timed out", "timeout"]

/-- Words of a host that cannot be reached. -/
def unreachableWords : List String :=
  ["connection refused", "network is unreachable", "no route to host", "host is down",
    "temporary failure", "name or service not known", "failed to lookup address",
    "handshake failed", "failed to connect", "resource temporarily unavailable", "would block"]

/-- Words of a connection that broke. -/
def lostWords : List String :=
  ["connection reset", "broken pipe", "disconnect", "channel closed", "hup", "eof", "send error"]

/-- The kind of fault that a message in lower case speaks of: a refused authentication before
everything else, so that it is never tried again. -/
def kindOfWords (lower : String) : FaultKind :=
  if Text.containsAny lower authenticationWords then .authenticationFailed
  else if Text.containsAny lower timeoutWords then .connectionTimeout
  else if Text.containsAny lower unreachableWords then .unreachable
  else if Text.containsAny lower lostWords then .connectionLost
  else .protocol

/-- The fault behind a message of the transport. -/
def classify (host user message : String) (limit : Duration) : Fault :=
  match kindOfWords (Text.lowercase message) with
  | .authenticationFailed => .authenticationFailed user host message false
  | .connectionTimeout => .connectionTimeout host limit
  | .unreachable => .unreachable host message
  | .connectionLost => .connectionLost host message
  | _ => .protocol message

end Fault

end RemoteShell
