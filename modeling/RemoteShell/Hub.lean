import RemoteShell.Circuit.Registry
import RemoteShell.Elevation.Engine
import RemoteShell.Pool.Get
import RemoteShell.Pool.Removal

/-!
# Hub

The shared state of a service: the pool of connections, the circuits of the hosts and the
elevation engine.  Every call works on one hub.

## Main definitions

* `Hub`, `Hub.empty`.
* `Hub.onPool`, `Hub.onElevation`: the step of a part as a step of the hub.
-/

namespace RemoteShell

/-- The shared state of a service. -/
structure Hub where
  pool : Pool
  circuits : Circuit.Registry
  elevation : Elevation.Engine

namespace Hub

/-- A hub that has seen nothing. -/
def empty (s : Settings) (w : Pool.Walk := .inOrder) : Hub :=
  ⟨.empty s.pool w, .empty s.circuit, .empty s.elevation⟩

/-- A step of the pool as a step of the hub. -/
def onPool (h : Hub) (step : Pool → Pool × α) : Hub × α :=
  let (p, a) := step h.pool
  ({ h with pool := p }, a)

/-- A step of the elevation engine as a step of the hub. -/
def onElevation (h : Hub) (step : Elevation.Engine → Elevation.Engine × α) : Hub × α :=
  let (e, a) := step h.elevation
  ({ h with elevation := e }, a)

/-- Note a use of a connection. -/
def touch (h : Hub) (c : Option ConnId) (now : Instant) : Hub :=
  match c with
  | none => h
  | some c => { h with pool := h.pool.touch c now }

end Hub

end RemoteShell
