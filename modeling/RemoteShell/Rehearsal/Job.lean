import RemoteShell.Rehearsal.Step

/-!
# Jobs

What a rehearsal works with, and the things that take time in it.  A job begins with a thing to do,
waits, and goes on with an answer, until it ends with a result.

## Main definitions

* `Bench`: what a rehearsal works with.
* `Job`: a thing that takes time; `Job.wait`, `Job.resume`, `Job.cancel`.
* `Act.begin`: a thing to do begins, and perhaps ends at once.
-/

namespace RemoteShell.Rehearsal

/-- What a rehearsal works with. -/
structure Bench where
  env : Environment
  settings : Settings
  -- A circuit registry that no pool has.
  registry : Circuit.Registry
  -- The parts that are used directly.
  apart : Hub
  -- The parts of the service that runs commands.
  together : Hub
  names : Assoc String ConnId
  -- The profile that was found out last.
  profile : Elevation.Profile
  world : World

namespace Bench

/-- The parts on a side. -/
def hub (b : Bench) : Side → Hub
  | .apart => b.apart
  | .together => b.together

/-- Change the parts on a side. -/
def setHub (b : Bench) (s : Side) (h : Hub) : Bench :=
  match s with
  | .apart => { b with apart := h }
  | .together => { b with together := h }

/-- A step of the parts on a side as a step of the bench. -/
def onHub (b : Bench) (s : Side) (step : Hub → Hub × α) : Bench × α :=
  let (h, a) := step (b.hub s)
  (b.setHub s h, a)

/-- The record of a named connection. -/
def record? (b : Bench) (entry : String) : Option Pool.Entry :=
  (b.names.get? entry).bind b.apart.pool.entry?

end Bench

/-- What becomes of the number of closed connections. -/
inductive CountUse where
  | answer
  -- It is not told.
  | untold
  -- A tool tells it, for one host or for all.
  | tool (host : Option String)
  deriving DecidableEq, Repr

/-- The answer of a step that closed connections. -/
def CountUse.result (n : Nat) : CountUse → Result
  | .answer => .count n
  | .untold => .nothing
  | .tool host => .tool (Tool.disconnectAnswer host n)

/-- A thing that takes time. -/
inductive Job where
  | resting (d : Duration)
  | getting (g : Pool.Get) (name : Option String)
  | closing (s : Side) (r : Pool.Removal) (u : CountUse)
  | running (c : ConnId) (q : Request)
  | probing (c : ConnId)
  | executing (x : Execution) (tool : Bool)
  | climbing (c : Elevation.Climb)
  | detecting (host : String) (t : Elevation.Talk (Except Fault Elevation.Profile))
  | resolving (t : Credential.Talk (Except Fault Credential.Offers))
  | loading (t : Credential.Talk (Except Fault Credential.Key))
  -- The idle connections will be closed at an instant.
  | sweepLater (every : Duration) (next : Instant) (d : Duration)
  | sweeping (every : Duration) (next : Instant) (r : Pool.Removal)

namespace Job

/-- A step of a job: what becomes of the bench, and how far the job comes. -/
abbrev Advance := Bench × Progress Job Ending

/-- The job ends with an answer. -/
def answer (r : Result) (b : Bench) : Advance := (b, .ends (.answered r))

/-- The host of the bare shell that a job works on. -/
def shell : Job → String
  | .climbing c => c.key.host
  | .detecting host _ => host
  | _ => ""

/-- What a job waits for. -/
def wait (b : Bench) : Job → Wait
  | .resting d | .sweepLater _ _ d => .pause d
  | .getting g _ => g.wait b.apart.pool
  | .closing _ r _ | .sweeping _ _ r => r.wait
  | .running c q => .exec (some c) q
  | .probing c => .probe c Pool.probeLimit
  | .executing x _ => x.wait b.together
  | .climbing c => c.wait
  | .detecting _ (.ask q _) => q.wait none
  | .resolving (.ask q _) | .loading (.ask q _) => q.wait
  | .detecting _ (.done _) | .resolving (.done _) | .loading (.done _) => .pause .zero

/-- Has the turn of a job come that waits for a lock? -/
def admitted (b : Bench) : Job → Bool
  | .getting g _ => g.admitted b.apart.pool
  | .executing x _ => x.admitted b.together
  | .climbing c => c.admitted b.apart.elevation
  | _ => false

/-! ## Following the parts -/

/-- Follow the search for a connection; one that is found may get a name. -/
def afterGet (name : Option String) :
    Bench × Progress Pool.Get Pool.Get.Result → Advance
  | (b, .waits g) => (b, .waits (.getting g name))
  | (b, .ends (.error f)) => answer (.connection (.error f)) b
  | (b, .ends (.ok c)) =>
    let fresh := !b.names.any fun n => n.2 == c
    let key := ((b.apart.pool.entry? c).map (·.key)).getD default
    let b := match name with
      | none => b
      | some n => { b with names := b.names.put n c }
    answer (.connection (.ok (key, fresh))) b

/-- Follow the closing of connections. -/
def afterRemoval (s : Side) (u : CountUse) : Bench × Progress Pool.Removal Nat → Advance
  | (b, .waits r) => (b, .waits (.closing s r u))
  | (b, .ends n) => answer (u.result n) b

/-- Follow the run of a command on a target. -/
def afterExecution (tool : Bool) (host : String) :
    Bench × Progress Execution Execution.Result → Advance
  | (b, .waits x) => (b, .waits (.executing x tool))
  | (b, .ends .crashed) => (b, .ends .crashed)
  | (b, .ends (.finished r)) =>
    answer (if tool then .tool (Tool.executeAnswer host r) else .outcome r) b

/-- Follow the run of an elevated command. -/
def afterClimb : Bench × Progress Elevation.Climb Elevation.Climb.Result → Advance
  | (b, .waits c) => (b, .waits (.climbing c))
  | (b, .ends .crashed) => (b, .ends .crashed)
  | (b, .ends (.finished r)) => answer (.elevated r) b

/-- Follow a detection; a profile that is found out is kept. -/
def afterDetection (host : String) (b : Bench) :
    Elevation.Talk (Except Fault Elevation.Profile) → Advance
  | .ask q next => (b, .waits (.detecting host (.ask q next)))
  | .done (.error f) => answer (.detected (.error f)) b
  | .done (.ok p) => answer (.detected (.ok p)) { b with profile := p }

/-- Follow a search for credentials. -/
def afterSearch (b : Bench) : Credential.Talk (Except Fault Credential.Offers) → Advance
  | .ask q next => (b, .waits (.resolving (.ask q next)))
  | .done r => answer (.offers r b.settings.credentials.compression) b

/-- Follow the loading of a key file. -/
def afterLoad (b : Bench) : Credential.Talk (Except Fault Credential.Key) → Advance
  | .ask q next => (b, .waits (.loading (.ask q next)))
  | .done r => answer (.key r) b

/-- Follow the closing of idle connections; the next time is counted from the last one, however
long the closing took. -/
def afterSweep (every : Duration) (next : Instant) (now : Instant) :
    Bench × Progress Pool.Removal Nat → Advance
  | (b, .waits r) => (b, .waits (.sweeping every next r))
  | (b, .ends _) =>
    let next := next.after every
    (b, .waits (.sweepLater every next (next.since now)))

/-! ## Going on -/

/-- A job goes on with the answer to what it waits for. -/
def resume (j : Job) (a : Answer) (now : Instant) (b : Bench) : Advance :=
  match j, a with
  | .resting _, .done => answer .nothing b
  | .getting g name, a => afterGet name (b.onHub .apart fun h => h.onPool (g.resume a now))
  | .closing s r u, a => afterRemoval s u (b.onHub s fun h => h.onPool (r.resume a))
  | .running c _, .replied r =>
    answer (.reply r) { b with apart := b.apart.touch (some c) now }
  | .probing _, .alive x => answer (.flag x) b
  | .executing x tool, a =>
    afterExecution tool x.task.target.host (b.onHub .together (x.resume a now))
  | .climbing c, a => afterClimb (b.onHub .apart fun h => h.onElevation (c.resume a))
  | .detecting host (.ask q next), a =>
    match q.take? a with
    | none => (b, .waits j)
    | some x => afterDetection host b (next x)
  | .resolving (.ask q next), a =>
    match q.take? a with
    | none => (b, .waits j)
    | some x => afterSearch b (next x)
  | .loading (.ask q next), a =>
    match q.take? a with
    | none => (b, .waits j)
    | some x => afterLoad b (next x)
  | .sweepLater every next _, .done =>
    afterSweep every next now
      (b.onHub .together fun h => h.onPool (Pool.Removal.ofExpired now))
  | .sweeping every next r, a =>
    afterSweep every next now (b.onHub .together fun h => h.onPool (r.resume a))
  | _, _ => (b, .waits j)

/-- A job is cancelled by its caller; only commands on targets can be. -/
def cancel (j : Job) (b : Bench) : Option Advance :=
  match j with
  | .executing x tool =>
    some (afterExecution tool x.task.target.host
      (b.onHub .together fun h => (x.cancel h).map id .ends))
  | _ => none

/-- The idle connections are closed again and again from now on. -/
def sweeper (every : Duration) (now : Instant) : Job :=
  .sweepLater every (now.after every) every

end Job

/-! ## Things to do -/

/-- Use a circuit. -/
def CircuitUse.apply (u : CircuitUse) (host : String) (now : Instant) (r : Circuit.Registry) :
    Circuit.Registry × Result :=
  match u with
  | .acquire => let (x, r) := r.acquire host now; (r, .acquired x)
  | .canExecute => (r, .flag (r.canExecute host now))
  | .success => (r.success host, .nothing)
  | .failure n => (n.repeat (fun r => r.failure host now) r, .nothing)
  | .status => (r, .circuit (r.status host now))
  | .reset => let (x, r) := r.reset host; (r, .flag x)

namespace Act

/-- Add to the script. -/
def extend (w : World) (a : Addition) : World :=
  { w with
    connects := w.connects ++ a.connects
    prompts := w.prompts ++ a.prompts
    playbook :=
      { queue := w.playbook.queue ++ a.replies
        rules := a.rules.getD w.playbook.rules
        standard := a.standard.or w.playbook.standard } }

/-- Set or unset a variable. -/
def setVariable (e : Environment) (name : String) (value : Option String) : Environment :=
  match value with
  | none => ⟨e.vars.erase name⟩
  | some v => ⟨e.vars.put name v⟩

/-- Go on with the record of a named connection, or say that there is none. -/
def withRecord (b : Bench) (name : String) (k : Pool.Entry → Job.Advance) : Job.Advance :=
  match b.record? name with
  | none => Job.answer .unnamed b
  | some e => k e

/-- Run a command on a target. -/
def run (caller : CallId) (t : Execution.Task) (tool cancelled : Bool) (now : Instant)
    (b : Bench) : Job.Advance :=
  Job.afterExecution tool t.target.host
    (b.onHub .together (Execution.start caller t cancelled now))

/-- Close connections. -/
def remove (s : Side) (u : CountUse) (step : Pool → Pool × Progress Pool.Removal Nat)
    (b : Bench) : Job.Advance :=
  Job.afterRemoval s u (b.onHub s fun h => h.onPool step)

/-- The pooled connections as they are looked at now. -/
def looks (p : Pool) (now : Instant) : List Look := p.listing.map fun e => ⟨e, now⟩

/-- Forget profiles. -/
def clear (s : Side) (host : Option String) (b : Bench) : Nat × Bench :=
  let h := b.hub s
  let (n, e) := h.elevation.clear host
  (n, b.setHub s { h with elevation := e })

/-- Call a tool. -/
def callTool (caller : CallId) (c : Tool.Call) (now : Instant) (b : Bench) : Job.Advance :=
  match c with
  | .execute a =>
    match Tool.task b.env b.settings.retry a with
    | .error f => Job.answer (.tool (.failed f)) b
    | .ok t => run caller t true false now b
  | .circuitStatus host =>
    Job.answer (.tool (.value (write (b.together.circuits.status host now)))) b
  | .resetCircuit host =>
    let (x, circuits) := b.together.circuits.reset host
    Job.answer (.tool (Tool.resetAnswer host x))
      { b with together := { b.together with circuits := circuits } }
  | .disconnect host => remove .together (.tool (some host)) (Pool.Removal.ofHost host) b
  | .disconnectAll => remove .together (.tool none) Pool.Removal.ofAll b
  | .clearElevation host =>
    let (n, b) := clear .together host b
    Job.answer (.tool (Tool.clearAnswer host n)) b
  | .listConnections =>
    let es := b.together.pool.listing
    Job.answer (.tool (.connections ⟨es.map (·.info "" "" now), .ofNat es.length⟩)) b
  | .poolStats => Job.answer (.tool (.value (write b.together.pool.stats))) b

/-- A thing to do begins, and perhaps ends at once. -/
def begin (caller : CallId) (now : Instant) (a : Act) (b : Bench) : Job.Advance :=
  match a with
  | .sleep d => (b, .waits (.resting d))
  | .script x => Job.answer .nothing { b with world := extend b.world x }
  | .env changes =>
    Job.answer .nothing
      { b with env := changes.foldl (fun e (n, v) => setVariable e n v) b.env }
  | .kill c =>
    Job.answer .nothing
      { b with world := b.world.modify c fun x => { x with alive := false } }
  | .stall c on =>
    Job.answer .nothing
      { b with world := b.world.modify c fun x => { x with stalled := on } }
  | .registry u host =>
    let (circuits, r) := u.apply host now b.registry
    Job.answer r { b with registry := circuits }
  | .circuit s u host =>
    let h := b.hub s
    let (circuits, r) := u.apply host now h.circuits
    Job.answer r (b.setHub s { h with circuits := circuits })
  | .get t name =>
    Job.afterGet name (b.onHub .apart fun h => h.onPool (Pool.Get.start caller t now))
  | .exec name q =>
    withRecord b name fun e =>
      ({ b with apart := b.apart.touch (some e.id) now }, .waits (.running e.id q))
  | .touch name =>
    withRecord b name fun e =>
      Job.answer .nothing { b with apart := b.apart.touch (some e.id) now }
  | .invalidate name =>
    withRecord b name fun e => remove .apart .untold (Pool.Removal.invalidate e.id) b
  | .alive name =>
    withRecord b name fun e =>
      if e.expired now then Job.answer (.flag false) b else (b, .waits (.probing e.id))
  | .entry name => withRecord b name fun e => Job.answer (.record ⟨e, now⟩) b
  | .disconnect s host => remove s .answer (Pool.Removal.ofHost host) b
  | .disconnectAll s => remove s .answer Pool.Removal.ofAll b
  | .cleanup s => remove s .answer (Pool.Removal.ofExpired now) b
  | .list s => Job.answer (.records s (looks (b.hub s).pool now)) b
  | .stats s => Job.answer (.stats s (b.hub s).pool.stats) b
  | .execute o =>
    run caller
      ⟨o.target, o.command, o.timeout.getD b.settings.commandTimeout, o.elevate,
        b.settings.retry⟩
      false (o.cancelAfter.any Duration.isZero) now b
  | .shutdown => remove .together .untold Pool.Removal.ofAll b
  | .tool name args =>
    match Tool.read name args with
    | .error r => Job.answer (.tool (.refused r)) b
    | .ok c => callTool caller c now b
  | .elevate key command timeout =>
    Job.afterClimb
      (b.onHub .apart fun h =>
        h.onElevation (Elevation.Climb.start caller key command timeout none))
  | .clearElevation s host =>
    let (n, b) := clear s host b
    Job.answer (.count n) b
  | .capabilities s key => Job.answer (.summary ((b.hub s).elevation.summary? key)) b
  | .detect host fallback timeout =>
    Job.afterDetection host b (Elevation.detect fallback timeout)
  | .profile c =>
    let p := c.apply b.profile
    Job.answer (.profile p) { b with profile := p }
  | .resolve host user keyPath hop =>
    Job.afterSearch b
      (Credential.resolve b.settings.credentials b.env host user keyPath hop)
  | .loadKey path host => Job.afterLoad b (Credential.load path host)
  | .setSecret name secret =>
    Job.answer .nothing
      { b with world := { b.world with vault := b.world.vault.set name secret } }
  | .deleteSecret name =>
    Job.answer .nothing
      { b with world := { b.world with vault := b.world.vault.delete name } }
  | .getSecret name => Job.answer (.words (b.world.vault.get? name)) b
  | .describeVault => Job.answer (.words (some b.world.vault.description)) b

end Act

end RemoteShell.Rehearsal
