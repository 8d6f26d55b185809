import RemoteShell.Rehearsal.Cabinet
import RemoteShell.Rehearsal.Journal
import RemoteShell.Rehearsal.Script
import RemoteShell.Wait

/-!
# World

The world that a service is rehearsed in: a network that follows a script, an operator with a list
of answers, agents, key files and a vault.  Time does not pass by itself; the world says how long a
wait takes, and is told when it is over.

## Main definitions

* `Wire`: a connection of the network.
* `World.begin`: a wait begins; it is written into the journal, and what it will take is decided.
* `World.finish`: a wait is over, and is answered.
-/

namespace RemoteShell.Rehearsal

/-- A connection of the scripted network. -/
structure Wire where
  key : Login
  alive : Bool
  -- How often it was closed.
  closes : Nat
  -- How many commands were sent.
  execs : Nat
  stalled : Bool
  probeDelay : Duration
  closeDelay : Duration
  deriving DecidableEq, Repr

/-- An agent that holds keys. -/
structure Agent where
  socket : String
  -- How many more connections it takes, if that is limited.
  connections : Option Nat
  deriving DecidableEq, Repr

/-- The world that a service is rehearsed in. -/
structure World where
  connects : List ScriptedConnect
  playbook : Playbook
  prompts : List (Option String)
  promptDelay : Duration
  choice : Option Credential.Choice
  agents : List Agent
  -- Every connection ever made, the oldest first.
  wires : List Wire
  vault : Vault
  journal : Journal
  deriving Repr

/-- A wait that has begun. -/
inductive Pending where
  | settled (a : Answer)
  | connecting (key : Login) (script : ScriptedConnect)
  | probing (c : ConnId)
  | closing (c : ConnId)
  | prompting

namespace World

/-- Write into the journal. -/
def note (w : World) (now : Instant) (e : Event) : World :=
  { w with journal := w.journal ++ [⟨now.millis, e⟩] }

/-- A connection. -/
def wire? (w : World) (c : ConnId) : Option Wire := w.wires[c]?

/-- Change a connection. -/
def modify (w : World) (c : ConnId) (f : Wire → Wire) : World :=
  { w with wires := w.wires.modify c f }

/-! ## Waits begin -/

/-- A connection is asked for: the script decides how it is taken. -/
def beginConnect (w : World) (key : Login) : World × Duration × Pending :=
  match w.connects with
  | [] => (w, .zero, .connecting key .plain)
  | s :: rest => ({ w with connects := rest }, s.delay, .connecting key s)

/-- A sign of life is asked for. -/
def beginProbe (w : World) (c : ConnId) (limit : Duration) : Duration × Pending :=
  match w.wire? c with
  | none => (.zero, .settled (.alive false))
  | some x =>
    if x.stalled ∨ limit < x.probeDelay.ceilMillis then (limit, .settled (.alive false))
    else (x.probeDelay, .probing c)

/-- A scripted reply to a request on a host.  One that takes longer than the request allows is a
command that does not finish in time. -/
def replyTo (host : String) (q : Request) (r : ScriptedReply) : Duration × Pending :=
  if q.timeout < r.delay then
    (q.timeout, .settled (.replied (.error (.commandTimeout host q.timeout))))
  else
    match r.fault with
    | some f => (r.delay, .settled (.replied (.error (f.strike host))))
    | none => (r.delay, .settled (.replied (.ok r.reply)))

/-- A command is sent to a host. -/
def beginReply (w : World) (host : String) (q : Request) : World × Duration × Pending :=
  let (r, playbook) := w.playbook.next q
  ({ w with playbook := playbook }, replyTo host q r)

/-- A command is sent on a connection, or on the bare shell of a host. -/
def beginExec (w : World) (shell : String) (on : Option ConnId) (q : Request) :
    World × Duration × Pending :=
  match on.bind fun c => (w.wire? c).map fun x => (c, x) with
  | none => w.beginReply shell q
  | some (c, x) =>
    let w := w.modify c fun x => { x with execs := x.execs + 1 }
    if x.alive then w.beginReply x.key.host q
    else
      (w, .zero, .settled (.replied
        (.error (.connectionLost x.key.host "Connection reset by peer"))))

/-- An agent is asked whether it holds keys, if it still takes a connection. -/
def askAgent (w : World) (socket : String) : World × Bool :=
  let serves (a : Agent) : Bool := a.socket == socket && a.connections != some 0
  let use (a : Agent) : Agent :=
    if serves a then { a with connections := a.connections.map (· - 1) } else a
  ({ w with agents := w.agents.map use }, w.agents.any serves)

/-- The operator's next answer. -/
def takePrompt (w : World) : World × Option String :=
  match w.prompts with
  | [] => (w, none)
  | a :: rest => ({ w with prompts := rest }, a)

/-- A wait begins: it is written into the journal, and how long it will take is decided.  `shell`
is the host of the bare shell.  Of connections that are closed side by side each is a wait of its
own. -/
def begin (w : World) (now : Instant) (shell : String) : Wait → World × Duration × Pending
  | .turn => (w, .zero, .settled .admitted)
  | .connect t limit => (w.note now (.connect t.login limit)).beginConnect t.login
  | .probe c limit => (w.note now (.probe c), w.beginProbe c limit)
  | .close cs =>
    match cs with
    | [] => (w, .zero, .settled .done)
    | c :: _ =>
      (w.note now (.close c), ((w.wire? c).map (·.closeDelay)).getD .zero, .closing c)
  | .exec on q => (w.note now (.exec on q)).beginExec shell on q
  | .pause d => (w, d, .settled .done)
  | .prompt message => (w.note now (.prompt message), w.promptDelay, .prompting)
  | .choose host user =>
    (w.note now (.choose host user), .zero, .settled (.choice w.choice))
  | .fetch name => (w, .zero, .settled (.secret (w.vault.get? name)))
  | .store name secret =>
    ({ w with vault := w.vault.set name secret }, .zero, .settled .done)
  | .erase name => ({ w with vault := w.vault.delete name }, .zero, .settled .done)
  | .agent socket =>
    let (w, b) := (w.note now (.agent socket)).askAgent socket
    (w, .zero, .settled (.holdsKeys b))
  | .read path => (w, .zero, .settled (.file (Cabinet.read path)))

/-! ## Waits are over -/

/-- A connection is made, or not. -/
def finishConnect (w : World) (key : Login) (s : ScriptedConnect) : World × Answer :=
  match s.fault with
  | some f => (w, .connected (.error (f.strike key.host)))
  | none =>
    let wire : Wire :=
      { key := key
        alive := true
        closes := 0
        execs := 0
        stalled := s.stalled
        probeDelay := s.probeDelay
        closeDelay := s.closeDelay }
    ({ w with wires := w.wires ++ [wire] }, .connected (.ok w.wires.length))

/-- A wait is over, and is answered. -/
def finish (w : World) : Pending → World × Answer
  | .settled a => (w, a)
  | .connecting key s => w.finishConnect key s
  | .probing c => (w, .alive ((w.wire? c).any (·.alive)))
  | .closing c =>
    (w.modify c fun x => { x with alive := false, closes := x.closes + 1 }, .closed c)
  | .prompting => let (w, a) := w.takePrompt; (w, .secret a)

end World

end RemoteShell.Rehearsal
