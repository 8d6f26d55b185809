import RemoteShell.Fault

/-!
# Tunnels

A connection through a jump host rides on a tunnel that is open already.  If the connection is not
made, the tunnel has to be closed again.  A guard sees to that: it owns the tunnel while the
connection is being made.  When that fails, the tunnel is taken from the guard and closed before
the call ends; when the connection is made, the guard lets go.  The guard goes with the call,
however the call comes to its end, and a tunnel that it still owns then is closed in the background.
A close that takes too long is left alone.

## Main definitions

* `Tunnel.Passage`, `Tunnel.Event`, `Tunnel.step`: the states of a call and what happens to it.
* `Tunnel.Closing`, `Tunnel.bounded`: a close of the tunnel, from its start to its end.
* `Tunnel.Course`, `Tunnel.course`: the whole call in time.
-/

namespace RemoteShell

namespace Tunnel

/-- How long a close of a tunnel may take. -/
def closeLimit : Duration := .ofSecs 5

/-! ## The guard -/

/-- How far a call has come. -/
inductive Phase (α : Type) where
  | carrying
  -- The connection was not made, and the tunnel is being closed.
  | closing (f : Fault)
  | ended (r : Except Fault α)
  | dropped

/-- A call that makes a connection through a tunnel. -/
structure Passage (α : Type) where
  phase : Phase α
  -- Does the guard own the tunnel?
  guarded : Bool

/-- What happens to a call. -/
inductive Event (α : Type) where
  | settled (r : Except Fault α)
  -- The close of the tunnel is over, done or left alone.
  | closeOver
  -- The caller gives the call up.
  | dropped

/-- Who waits for a close that starts. -/
inductive Start where
  -- The call.
  | awaited
  -- Nobody.
  | background
  deriving DecidableEq, Repr

/-- A call begins: the guard owns the tunnel. -/
def Passage.start : Passage α := ⟨.carrying, true⟩

/-- The call is over, and its guard goes: a tunnel that the guard still owns is closed then. -/
def Passage.leave (p : Passage α) (phase : Phase α) : Passage α × Option Start :=
  (⟨phase, false⟩, if p.guarded then some .background else none)

/-- The guard lets go of its tunnel. -/
def Passage.disarm (p : Passage α) : Passage α := { p with guarded := false }

/-- What a call does when something happens, and the close that it starts. -/
def step (p : Passage α) (e : Event α) : Passage α × Option Start :=
  match p.phase, e with
  | .carrying, .settled (.ok a) => p.disarm.leave (.ended (.ok a))
  | .carrying, .settled (.error f) =>
    -- The tunnel is taken from the guard, if it is there, and its close is waited for.
    if p.guarded then ({ p.disarm with phase := .closing f }, some .awaited)
    else p.leave (.ended (.error f))
  | .closing f, .closeOver => p.leave (.ended (.error f))
  | .carrying, .dropped | .closing _, .dropped => p.leave .dropped
  | _, _ => (p, none)

/-! ## The call in time -/

/-- What a connection through a tunnel and the close of the tunnel would do. -/
structure Plan (α : Type) where
  outcome : Except Fault α
  duration : Duration
  -- How long a close of the tunnel takes; none if it never ends.
  closeTime : Option Duration

/-- A close of the tunnel, in time from the start of the call. -/
structure Closing where
  start : Duration
  finish : Duration
  -- Is it done then? If not, it was left alone.
  complete : Bool
  deriving DecidableEq, Repr

/-- A close that is left alone after the limit. -/
def bounded (start : Duration) (closeTime : Option Duration) : Closing :=
  match closeTime with
  | none => ⟨start, start.plus closeLimit, false⟩
  | some k =>
    if closeLimit < k then ⟨start, start.plus closeLimit, false⟩ else ⟨start, start.plus k, true⟩

/-- A close whose caller is gone at an instant: it goes no further. -/
def Closing.cut (c : Closing) (t : Duration) : Closing := ⟨c.start, t, false⟩

/-- A whole call in time. -/
structure Course (α : Type) where
  phase : Phase α
  time : Duration
  -- The close that the call waited for.
  awaited : Option Closing
  -- The close that went on in the background.
  background : Option Closing

/-- Does a caller give up before an instant? -/
def dropsBefore (drop : Option Duration) (t : Duration) : Option Duration :=
  drop.filter fun c => decide (c < t)

/-- The close in the background that a step starts at an instant. -/
def Plan.background (x : Plan α) (t : Duration) : Option Start → Option Closing
  | some .background => some (bounded t x.closeTime)
  | _ => none

/-- The course of a call from its plan, and from when its caller gives it up, if at all.  What is
due at the instant of giving up still happens. -/
def course (x : Plan α) (drop : Option Duration) : Course α :=
  match dropsBefore drop x.duration with
  -- Given up while the connection is being made.
  | some c =>
    let (p, s) := step Passage.start (.dropped : Event α)
    ⟨p.phase, c, none, x.background c s⟩
  | none =>
    match step Passage.start (.settled x.outcome) with
    | (p, some .awaited) =>
      let close := bounded x.duration x.closeTime
      match dropsBefore drop close.finish with
      | none =>
        let (p, s) := step p .closeOver
        ⟨p.phase, close.finish, some close, x.background close.finish s⟩
      -- Given up during the close: the guard does not own the tunnel any more.
      | some c =>
        let (p, s) := step p .dropped
        ⟨p.phase, c, some (close.cut c), x.background c s⟩
    | (p, s) => ⟨p.phase, x.duration, none, x.background x.duration s⟩

/-! ## What an observer sees -/

/-- What an observer has seen of a tunnel at some instant. -/
structure Sight where
  time : Duration
  starts : Nat
  completed : Nat
  deriving DecidableEq, Repr

/-- Count a condition. -/
def count (b : Bool) : Nat := if b then 1 else 0

/-- What is seen when the call ends; a close in the background has not started yet. -/
def Course.onReturn (c : Course α) : Sight where
  time := c.time
  starts := count c.awaited.isSome
  completed := count (c.awaited.any (·.complete))

/-- Is a close in the background over, when time has gone on from the end of the call to an
instant? -/
def Course.settledBy (c : Course α) (k : Closing) (t : Duration) : Bool :=
  decide (c.time < t) && (k.finish == k.start || decide (k.finish < t))

/-- What is seen some time after the call ended. -/
def Course.afterwards (c : Course α) (settle : Duration) : Sight :=
  let t := c.time.plus settle
  { time := t
    starts := c.onReturn.starts + count (c.background.isSome && decide (c.time < t))
    completed :=
      c.onReturn.completed + count (c.background.any fun k => k.complete && c.settledBy k t) }

/-- How many references to the tunnel are left then: the observer's own, and that of a close in
the background that is not over. -/
def Course.owners (c : Course α) (settle : Duration) : Nat :=
  1 + count (c.background.any fun k => !c.settledBy k (c.time.plus settle))

end Tunnel

end RemoteShell
