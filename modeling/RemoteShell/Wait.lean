import RemoteShell.Credential.Search
import RemoteShell.Elevation.Query

/-!
# Waits and answers

What a call waits for, and what it is told when the wait is over.  Between two waits a call goes on
without a break; at a wait other calls may go on, and the caller may give the call up.

## Main definitions

* `Wait`, `Answer`: the waits and the answers that end them.
* `Progress`: a call waits, or it has ended.
* `Elevation.Query.wait`, `Elevation.Query.take?` and the same for credentials: questions of a
  dialogue as waits.
-/

namespace RemoteShell

/-- The number of a connection. -/
abbrev ConnId := Nat

/-- What a call waits for. -/
inductive Wait where
  | turn
  -- A connection to a target, for as long as it may take.
  | connect (t : Target) (limit : Duration)
  | probe (c : ConnId) (limit : Duration)
  -- The end of connections that are being closed, one by one.
  | close (cs : List ConnId)
  -- The reply to a request, on a connection or on a bare shell.
  | exec (on : Option ConnId) (r : Request)
  | pause (d : Duration)
  | prompt (message : String)
  | choose (host user : String)
  | fetch (name : String)
  | store (name secret : String)
  | erase (name : String)
  | agent (socket : String)
  | read (path : String)

/-- What a call is told when a wait is over. -/
inductive Answer where
  | admitted
  | connected (r : Except Fault ConnId)
  | alive (b : Bool)
  | closed (c : ConnId)
  | replied (r : Except Fault Reply)
  -- The time is over, or a secret is stored or deleted.
  | done
  | secret (s : Option String)
  | choice (c : Option Credential.Choice)
  | holdsKeys (b : Bool)
  | file (f : Credential.KeyFile)

/-- How far a call has come. -/
inductive Progress (σ ρ : Type) where
  | waits (s : σ)
  | ends (r : ρ)

/-- The wait behind a question of elevation that is put to a host.  The profile is kept without a
wait. -/
def Elevation.Query.wait (on : Option ConnId) : Elevation.Query → Wait
  | .run e => .exec on e.request
  | .prompt message => .prompt message
  | .fetch name => .fetch name
  | .store name secret => .store name secret
  | .erase name => .erase name
  | .keep _ => .pause .zero

/-- The answer to a question of elevation, if it is one. -/
def Elevation.Query.take? : (q : Elevation.Query) → RemoteShell.Answer → Option q.Answer
  | .run _, .replied r => some r
  | .prompt _, .secret s => some s
  | .fetch _, .secret s => some s
  | .store .., .done => some ()
  | .erase _, .done => some ()
  | .keep _, .done => some ()
  | _, _ => none

/-- The wait behind a question of the search for credentials. -/
def Credential.Query.wait : Credential.Query → Wait
  | .agent socket => .agent socket
  | .read path => .read path
  | .fetch name => .fetch name
  | .store name secret => .store name secret
  | .prompt message => .prompt message
  | .choose host user => .choose host user

/-- The answer to a question of the search for credentials, if it is one. -/
def Credential.Query.take? : (q : Credential.Query) →
    RemoteShell.Answer → Option q.Answer
  | .agent _, .holdsKeys b => some b
  | .read _, .file f => some f
  | .fetch _, .secret s => some s
  | .store .., .done => some ()
  | .prompt _, .secret s => some s
  | .choose .., .choice c => some c
  | _, _ => none

end RemoteShell
