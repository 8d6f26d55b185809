import RemoteShell.Pool.Basic

/-!
# Taking connections out

Connections are taken out of the pool at once and closed side by side; the call ends when the last
of them is closed.

## Main definitions

* `Pool.Removal`: connections that are being closed.
* `Pool.Removal.start`: take out the connections that a test picks.
* `Pool.Removal.invalidate`: take out one connection, if it still is the one in the pool.
* `Pool.Removal.resume`: the call goes on when a connection is closed.
-/

namespace RemoteShell.Pool

/-- Connections that are being closed. -/
structure Removal where
  pending : List ConnId
  -- How many there were.
  count : Nat
  deriving DecidableEq, Repr

namespace Removal

/-- What the call waits for. -/
def wait (r : Removal) : Wait := .close r.pending

/-- Close connections that have been taken out. -/
def closing (cs : List ConnId) (p : Pool) : Pool × Progress Removal Nat :=
  if cs.isEmpty then (p, .ends 0) else (p, .waits ⟨cs, cs.length⟩)

/-- Take out and close the pooled connections that a test picks. -/
def start (pick : Entry → Bool) (p : Pool) : Pool × Progress Removal Nat :=
  closing (p.picked pick) (p.removeAll pick)

/-- Take out and close every connection to a host. -/
def ofHost (host : String) (p : Pool) : Pool × Progress Removal Nat :=
  start (fun e => e.key.host = host) p

/-- Take out and close every connection. -/
def ofAll (p : Pool) : Pool × Progress Removal Nat := start (fun _ => true) p

/-- Take out and close every connection that has been idle for too long. -/
def ofExpired (now : Instant) (p : Pool) : Pool × Progress Removal Nat :=
  start (fun e => e.expired now) p

/-- Take out and close one connection, if it still is the one in the pool. -/
def invalidate (c : ConnId) (p : Pool) : Pool × Progress Removal Nat :=
  if p.holds c then closing [c] (p.remove c) else (p, .ends 0)

/-- The call goes on when a connection is closed. -/
def resume (r : Removal) (a : Answer) (p : Pool) : Pool × Progress Removal Nat :=
  match a with
  | .closed c =>
    if r.pending.contains c then
      let rest := r.pending.erase c
      let p := p.noteClosed c
      -- The call counts what it took out, not what others close.
      if rest.isEmpty then (p, .ends r.count) else (p, .waits { r with pending := rest })
    else (p, .waits r)
  | _ => (p, .waits r)

end Removal

end RemoteShell.Pool
