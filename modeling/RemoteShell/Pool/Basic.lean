import RemoteShell.Cells
import RemoteShell.Counts
import RemoteShell.Setting
import RemoteShell.Wait

/-!
# Pool of connections

At most one connection is pooled under a login, and not more than the settings allow altogether.
The record of a connection outlives its place in the pool, because calls may still use it.

A call that looks for a connection first takes the lock of its login, so that two calls for one
login never connect at the same time.  The lock is made when it is first asked for, and dropped when
a connection of the login has been closed or could not be made and no call has a handle on it.

The pooled connections are kept in a table that is gone through in an order of its own.  Nothing
depends on it but which of several connections is taken out that were last used at one instant.

## Main definitions

* `Pool.Entry`: the record of a connection, with its times and whether it is pooled.
* `Pool.Walk`: an order in which records are gone through.
* `Pool`, its views `pooled` and `lookup`, and its changes `insert`, `remove`, `removeAll`,
  `evict?`, `noteClosed`.
* `Pool.Stats`, `Pool.stats`, `Pool.listing`: what operators see.
-/

namespace RemoteShell

namespace Pool

/-- The record of a connection. -/
structure Entry where
  id : ConnId
  key : Login
  jumped : Bool
  created : Instant
  -- When it was last used, in whole milliseconds after it was opened.
  lastUsedMillis : Nat
  idleTimeout : Duration
  pooled : Bool
  deriving DecidableEq, Repr

namespace Entry

/-- Note a use. -/
def touch (e : Entry) (now : Instant) : Entry :=
  { e with lastUsedMillis := max e.lastUsedMillis (now.since e.created).millis }

/-- The instant of the last use. -/
def lastUsed (e : Entry) : Instant := e.created.after (.ofMillis e.lastUsedMillis)

/-- How long the connection has been idle. -/
def idle (e : Entry) (now : Instant) : Duration := now.since e.lastUsed

/-- Has the connection been idle for too long? -/
def expired (e : Entry) (now : Instant) : Bool := decide (e.idleTimeout < e.idle now)

/-- The description of the record; `mark` stands for its identity. -/
def description (mark : String) (e : Entry) (now : Instant) : String :=
  Text.described "ConnectionEntry"
    [("id", mark), ("key", Text.quoted e.key.text), ("idle", (e.idle now).text)]

end Entry

/-- **An order in which a table of records is gone through**: every record comes once.  What is
taken out of a pool never comes back, so a pool that makes room does not meet the same records
again, and one walk stands for all orders that a table may have in the course of time. -/
structure Walk where
  visits : List Entry → List Entry
  perm (es : List Entry) : (visits es).Perm es

/-- The records are gone through as they are, the oldest first. -/
def Walk.inOrder : Walk := ⟨id, fun _ => .refl _⟩

/-- What has happened since the pool was made. -/
structure Counters where
  created : Nat
  reused : Nat
  -- Connections taken out to make room.
  evicted : Nat
  closed : Nat
  deriving DecidableEq, Repr

end Pool

open Pool in
/-- A pool of connections. -/
structure Pool where
  settings : PoolSettings
  walk : Walk
  -- The records of all connections ever opened, the oldest first.
  entries : List Entry
  locks : Cells Login Unit
  counters : Counters

namespace Pool

/-- A pool without connections. -/
def empty (s : PoolSettings) (w : Walk := .inOrder) : Pool := ⟨s, w, [], .empty, ⟨0, 0, 0, 0⟩⟩

/-! ## Views -/

/-- The records in the pool. -/
def pooled (p : Pool) : List Entry := p.entries.filter (·.pooled)

/-- The record of a connection. -/
def entry? (p : Pool) (c : ConnId) : Option Entry := p.entries.find? (·.id == c)

/-- The record that is pooled under a login. -/
def lookup (p : Pool) (k : Login) : Option Entry := p.pooled.find? fun e => e.key = k

/-! ## Changes -/

/-- Change the record of a connection. -/
def modify (p : Pool) (c : ConnId) (f : Entry → Entry) : Pool :=
  { p with entries := p.entries.map fun e => if e.id = c then f e else e }

/-- Note a use of a connection. -/
def touch (p : Pool) (c : ConnId) (now : Instant) : Pool := p.modify c (·.touch now)

/-- Put a new connection into the pool, in place of one under the same login. -/
def insert (p : Pool) (c : ConnId) (t : Target) (now : Instant) : Pool :=
  { p with
    entries :=
      (p.entries.map fun e => if e.key = t.login then { e with pooled := false } else e) ++
        [{ id := c
           key := t.login
           jumped := t.hop.isSome
           created := now
           lastUsedMillis := 0
           idleTimeout := p.settings.idleTimeout
           pooled := true }]
    counters := { p.counters with created := p.counters.created + 1 } }

/-- Is the record of a connection in the pool? -/
def holds (p : Pool) (c : ConnId) : Bool := (p.entry? c).any (·.pooled)

/-- Take a connection out of the pool. -/
def remove (p : Pool) (c : ConnId) : Pool := p.modify c fun e => { e with pooled := false }

/-- The pooled connections that a test picks. -/
def picked (p : Pool) (pick : Entry → Bool) : List ConnId :=
  (p.pooled.filter pick).map (·.id)

/-- Take the connections that a test picks out of the pool. -/
def removeAll (p : Pool) (pick : Entry → Bool) : Pool :=
  { p with
    entries := p.entries.map fun e => if e.pooled && pick e then { e with pooled := false } else e }

/-- The record used longest ago; of several the one that comes first. -/
def leastRecent : List Entry → Option Entry
  | [] => none
  | e :: es =>
    match leastRecent es with
    | none => some e
    | some f => if f.lastUsed < e.lastUsed then some f else some e

/-- How many connections may stay: one less than the settings allow when room is made for a new
one, and as many as they allow when the new one is to be kept. -/
def limit (p : Pool) (keep : Option Login) : Nat :=
  if keep.isSome then p.settings.maxConnections else p.settings.maxConnections - 1

/-- Take out the connection used longest ago if there are too many, but never the one to keep. -/
def evict? (p : Pool) (keep : Option Login) : Option (Entry × Pool) :=
  if p.pooled.length ≤ p.limit keep then none
  else
    (leastRecent ((p.walk.visits p.pooled).filter fun e => some e.key ≠ keep)).map fun e =>
      (e, { p.remove e.id with
            counters := { p.counters with evicted := p.counters.evicted + 1 } })

/-- Drop the lock of a login if no call has a handle on it. -/
def dropLock (p : Pool) (k : Login) : Pool := { p with locks := p.locks.retire k fun _ => true }

/-- Note that a connection has been closed. -/
def noteClosed (p : Pool) (c : ConnId) : Pool :=
  let p := { p with counters := { p.counters with closed := p.counters.closed + 1 } }
  match p.entry? c with
  | none => p
  | some e => p.dropLock e.key

/-- Note that a call was given a pooled connection. -/
def noteReused (p : Pool) (c : ConnId) (now : Instant) : Pool :=
  let p := p.touch c now
  { p with counters := { p.counters with reused := p.counters.reused + 1 } }

/-! ## What operators see -/

/-- How full the pool is, and what has happened since it was made. -/
structure Stats where
  total : UInt64
  maxConnections : UInt64
  perHost : Counts
  created : UInt64
  reused : UInt64
  evicted : UInt64
  closed : UInt64

/-- How full the pool is, and what has happened since it was made. -/
def stats (p : Pool) : Stats where
  total := .ofNat p.pooled.length
  maxConnections := .ofNat p.settings.maxConnections
  perHost := p.pooled.foldl (fun c e => c.increment e.key.host) .empty
  created := .ofNat p.counters.created
  reused := .ofNat p.counters.reused
  evicted := .ofNat p.counters.evicted
  closed := .ofNat p.counters.closed

/-- The pooled connections in the order of their logins. -/
def listing (p : Pool) : List Entry := p.pooled.mergeSort fun a b => a.key.notAfter b.key

end Pool

end RemoteShell
