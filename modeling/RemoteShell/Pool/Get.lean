import RemoteShell.Pool.Basic

/-!
# Looking for a connection

A call for a connection takes the lock of its login.  Under the lock it asks a pooled connection
for a sign of life and uses it; a dead one is taken out and closed.  Then it makes room, connects,
pools the new connection, and makes room again, because others may have filled the pool meanwhile.

## Main definitions

* `Pool.Get`, `Pool.Get.Phase`: a call, and what it waits for.
* `Pool.Get.start`, `Pool.Get.resume`, `Pool.Get.abandon`: the call begins, goes on with an answer,
  or is given up by its caller.
-/

namespace RemoteShell.Pool

/-- How long a connection may take to give a sign of life. -/
def probeLimit : Duration := .ofSecs 5

namespace Get

/-- What a call for a connection waits for. -/
inductive Phase where
  | queued
  | probing (c : ConnId)
  | replacing (c : ConnId)
  -- The end of a connection that was taken out to make room for the new one.
  | clearing (c : ConnId)
  | connecting
  -- The end of a connection that was taken out after the new one was pooled.
  | trimming (victim made : ConnId)
  deriving DecidableEq, Repr

end Get

/-- A call for a connection. -/
structure Get where
  caller : CallId
  target : Target
  lock : CellId
  phase : Get.Phase
  deriving DecidableEq, Repr

namespace Get

/-- The result of a call: a connection or a fault. -/
abbrev Result := Except Fault ConnId

/-- What a call waits for. -/
def wait (g : Get) (p : Pool) : Wait :=
  match g.phase with
  | .queued => .turn
  | .probing c => .probe c probeLimit
  | .replacing c | .clearing c | .trimming c _ => .close [c]
  | .connecting => .connect g.target p.settings.connectTimeout

/-- Has the turn of the call come? -/
def admitted (g : Get) (p : Pool) : Bool := p.locks.admits g.lock g.caller

/-- The call goes on to wait for something else. -/
def goOn (g : Get) (phase : Phase) (p : Pool) : Pool × Progress Get Result :=
  (p, .waits { g with phase := phase })

/-- The call ends and gives its lock back. -/
def finish (g : Get) (r : Result) (p : Pool) : Pool × Progress Get Result :=
  let p := { p with locks := p.locks.release g.lock g.caller }
  match r with
  | .ok _ => (p, .ends r)
  -- Nothing is pooled under the login now, so its lock need not stay.
  | .error _ => (p.dropLock g.target.login, .ends r)

/-- Make room for the new connection, then connect. -/
def makeRoom (g : Get) (p : Pool) : Pool × Progress Get Result :=
  match p.evict? none with
  | some (victim, p) => g.goOn (.clearing victim.id) p
  | none => g.goOn .connecting p

/-- Make room while the new connection is kept, then end with it. -/
def trim (g : Get) (made : ConnId) (p : Pool) : Pool × Progress Get Result :=
  match p.evict? (some g.target.login) with
  | some (victim, p) => g.goOn (.trimming victim.id made) p
  | none => g.finish (.ok made) p

/-- Take out a dead connection and close it. -/
def replace (g : Get) (c : ConnId) (p : Pool) : Pool × Progress Get Result :=
  g.goOn (.replacing c) (p.remove c)

/-- Look for a pooled connection; one that has been idle for too long is dead. -/
def lookUp (g : Get) (now : Instant) (p : Pool) : Pool × Progress Get Result :=
  match p.lookup g.target.login with
  | none => g.makeRoom p
  -- One that is idle for too long is not asked.
  | some e => if e.expired now then g.replace e.id p else g.goOn (.probing e.id) p

/-- A call begins: it asks for the lock of its login. -/
def start (caller : CallId) (t : Target) (now : Instant) (p : Pool) :
    Pool × Progress Get Result :=
  match t.validate with
  -- A wrong target is refused before it gets a lock.
  | .error f => (p, .ends (.error f))
  | .ok () =>
    let (lock, locks) := p.locks.openCell t.login ()
    let p := { p with locks := locks.enter lock caller }
    let g : Get := ⟨caller, t, lock, .queued⟩
    if g.admitted p then g.lookUp now p else (p, .waits g)

/-- The call goes on with the answer to what it waits for. -/
def resume (g : Get) (a : Answer) (now : Instant) (p : Pool) : Pool × Progress Get Result :=
  match g.phase, a with
  | .queued, .admitted => g.lookUp now p
  | .probing c, .alive true => g.finish (.ok c) (p.noteReused c now)
  | .probing c, .alive false => g.replace c p
  | .replacing c, .closed _ => g.makeRoom (p.noteClosed c)
  | .clearing c, .closed _ => g.makeRoom (p.noteClosed c)
  | .connecting, .connected (.error f) => g.finish (.error f) p
  | .connecting, .connected (.ok c) => g.trim c (p.insert c g.target now)
  | .trimming c made, .closed _ => g.trim made (p.noteClosed c)
  | _, _ => (p, .waits g)

/-- The caller gives the call up: its lock and its place in the queue are free again. -/
def abandon (g : Get) (p : Pool) : Pool := { p with locks := p.locks.release g.lock g.caller }

end Get

end RemoteShell.Pool
