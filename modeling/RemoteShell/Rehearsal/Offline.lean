import RemoteShell.Rehearsal.World
import RemoteShell.Execution

/-!
# Rehearsals without a network

What a service does on a machine that has no network.  Credentials are searched for first, and
then no host can be reached; commands on targets are tried as often as the settings say.

## Main definitions

* `Offline.Step`, `Offline.Report`: one step, and what it answers.
* `Offline.attempt`: a connection that is tried.
* `Offline.run`: the steps of a rehearsal.
-/

namespace RemoteShell.Rehearsal.Offline

/-- The complaint of a machine without a network. -/
def complaint : String := "Network is unreachable (os error 101)"

/-- What a rehearsal without a network works with. -/
structure Bench where
  env : Environment
  settings : Settings
  hub : Hub
  world : World
  now : Instant

/-- A bench on which nothing has happened. -/
def Bench.begin (e : Environment) (s : Settings) (w : World) : Bench := ⟨e, s, .empty s, w, .start⟩

/-- A step of a rehearsal without a network. -/
inductive Step where
  | connect (t : Target) (limit : Option Duration)
  | use
  | execute (byEnvironment : Bool) (t : Target) (command : String) (timeout : Option Duration)
  | present

/-- What a step answers. -/
inductive Result where
  | failed (f : Fault)
  | notConnected
  deriving DecidableEq, Repr

/-- What a step answered, and what the operator was asked meanwhile. -/
structure Report where
  result : Result
  asked : Journal
  deriving DecidableEq, Repr

/-! ## Credentials -/

/-- The answer to a question of the search for credentials.  Without an operator of its own the
search is answered by the world. -/
def reply (o : Option Credential.Operator) (w : World) :
    (q : Credential.Query) → q.Answer × World
  | .agent socket => let (w, b) := w.askAgent socket; (b, w)
  | .read path => (Cabinet.read path, w)
  | .fetch name => (w.vault.get? name, w)
  | .store name secret => ((), { w with vault := w.vault.set name secret })
  | .prompt message =>
    match o with
    | some o => (o.secret message, w)
    | none => let (w, a) := (w.note .start (.prompt message)).takePrompt; (a, w)
  | .choose host user =>
    match o with
    | some o => (o.choice, w)
    | none => (w.choice, w.note .start (.choose host user))

/-- Follow a search for credentials to its end. -/
def follow (o : Option Credential.Operator) : Credential.Talk α → World → α × World
  | .done a, w => (a, w)
  | .ask q next, w =>
    let (a, w) := reply o w q
    follow o (next a) w

/-- The account that the first connection of a target is for. -/
def firstHost (e : Environment) (t : Target) : String × String :=
  match t.hop with
  | some hop => (hop.host, hop.user)
  | none => (t.host, t.loginUser e.user?)

/-- A connection is tried: credentials are searched for, and then the host cannot be reached. -/
def attempt (b : Bench) (o : Option Credential.Operator) (t : Target) (limit : Duration) :
    Fault × Bench :=
  let talk := Credential.resolve b.settings.credentials b.env t.host (t.loginUser b.env.user?)
    t.keyPath t.hop
  match follow o talk b.world with
  | (.error f, w) => (f, { b with world := w })
  | (.ok _, w) =>
    let (host, user) := firstHost b.env t
    (Fault.classify host user ("Failed to connect: " ++ complaint) limit, { b with world := w })

/-! ## Commands -/

/-- A command is tried until its call ends.  Every try asks for a connection and perhaps waits, so
that the number of waits is bounded by the number of tries. -/
def conclude (o : Option Credential.Operator) :
    Nat → Hub × Progress Execution Execution.Result → Bench → Fault × Bench
  | 0, (h, _), b => (.cancelled, { b with hub := h })
  | _ + 1, (h, .ends (.finished (.error f))), b => (f, { b with hub := h })
  | _ + 1, (h, .ends _), b => (.cancelled, { b with hub := h })
  | n + 1, (h, .waits x), b =>
    match x.wait h with
    | .connect t limit =>
      let (f, b) := attempt b o t limit
      conclude o n (x.resume (.connected (.error f)) b.now h) b
    | .pause d =>
      let b := { b with now := b.now.after d }
      conclude o n (x.resume .done b.now h) b
    | _ => (.cancelled, { b with hub := h })

/-- A command is run on a target, and fails. -/
def execute (b : Bench) (o : Option Credential.Operator) (t : Target) (command : String)
    (timeout : Option Duration) : Fault × Bench :=
  let task : Execution.Task :=
    ⟨t, command, timeout.getD b.settings.commandTimeout, true, b.settings.retry⟩
  conclude o (2 * b.settings.retry.maxRetries + 3) (Execution.start 0 task false b.now b.hub) b

/-! ## Steps -/

/-- Take a step; offers of credentials cannot be presented without a connection. -/
def take (b : Bench) : Step → Except String (Result × Bench)
  | .connect t limit =>
    let (f, b) := attempt b none t (limit.getD b.settings.pool.connectTimeout)
    .ok (.failed f, b)
  | .use => .ok (.notConnected, b)
  | .execute byEnvironment t command timeout =>
    let o := if byEnvironment then some (.environment b.env) else none
    let (f, b) := execute b o t command timeout
    .ok (.failed f, b)
  | .present => .error ("connect " ++ complaint)

/-- Take steps one after another, and report on each. -/
def run : List Step → Bench → Except String (List Report)
  | [], _ => .ok []
  | s :: rest, b => do
    let (r, b) ← take { b with world := { b.world with journal := [] } } s
    let rs ← run rest b
    return ⟨r, b.world.journal⟩ :: rs

end RemoteShell.Rehearsal.Offline
