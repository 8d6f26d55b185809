import RemoteShell.Circuit.Breaker
import RemoteShell.Elevation.Profile
import RemoteShell.Json.Codec
import RemoteShell.Pool.Basic

/-!
# The service's types as JSON

How everything that operators see is written as JSON and read back, with the names and the order
of its fields.

## Main definitions

* `ExecuteAnswer`, `ConnectionInfo`, `ConnectionList`, `ResetAnswer`, `DisconnectAnswer`,
  `ClearAnswer`: the answers of the tools.
* The `Codec` instances of these and of the domain types that stand in them.
-/

namespace RemoteShell

/-- The answer of a tool that ran a command. -/
structure ExecuteAnswer where
  host : String
  stdout : String
  stderr : String
  exitCode : Int32
  -- The method of elevation that the command needed.
  elevatedWith : Option String
  deriving DecidableEq, Repr

/-- A pooled connection as operators see it. -/
structure ConnectionInfo where
  id : String
  key : Login
  connectedAt : String
  -- How many whole seconds it has been idle.
  idleSecs : UInt64
  viaJumpHost : Bool
  deriving DecidableEq, Repr

/-- All pooled connections as operators see them. -/
structure ConnectionList where
  connections : List ConnectionInfo
  count : UInt64
  deriving DecidableEq, Repr

/-- The answer of the tool that closes a circuit. -/
structure ResetAnswer where
  host : String
  -- Did the host have a circuit?
  reset : Bool
  -- The same in words.
  message : String
  deriving DecidableEq, Repr

/-- The answer of the tools that close connections. -/
structure DisconnectAnswer where
  -- The host, unless all connections were closed.
  host : Option String
  closed : UInt64
  message : String
  deriving DecidableEq, Repr

/-- The answer of the tool that forgets profiles. -/
structure ClearAnswer where
  -- The host, unless all profiles were forgotten.
  host : Option String
  cleared : UInt64
  message : String
  deriving DecidableEq, Repr

/-! ## Names -/

instance : Codec FaultKind := ⟨fun k => .str k.name, readName FaultKind.ofName?⟩

instance : Codec Circuit.State := ⟨fun s => .str s.name, readName Circuit.State.ofName?⟩

instance : Codec Elevation.Method := ⟨fun m => .str m.name, readName Elevation.Method.ofName?⟩

instance : Codec Elevation.Outcome := ⟨fun o => .str o.name, readName Elevation.Outcome.ofName?⟩

/-! ## Records -/

instance : Codec Login where
  write k := .obj [("username", write k.user), ("host", write k.host), ("port", write k.port)]
  read := Record.read 3 fun s => do
    let user ← (s 0 "username").required
    let host ← (s 1 "host").required
    let port ← (s 2 "port").required
    some ⟨user, host, port⟩

instance : Codec Hop where
  write h := .obj <|
    [("host", write h.host), ("port", write h.port), ("username", write h.user)] ++
      Json.member? "key_path" (h.keyPath.map write)
  read := Record.read 4 fun s => do
    let host ← (s 0 "host").required
    let port ← (s 1 "port").orElse defaultPort
    let user ← (s 2 "username").required
    let keyPath ← (s 3 "key_path").skippable
    some ⟨host, port, user, keyPath⟩

instance : Codec Reply where
  write r := .obj
    [("stdout", write r.stdout), ("stderr", write r.stderr), ("exit_code", write r.exitCode)]
  read := Record.read 3 fun s => do
    let stdout ← (s 0 "stdout").required
    let stderr ← (s 1 "stderr").required
    let exitCode ← (s 2 "exit_code").required
    some ⟨stdout, stderr, exitCode⟩

instance : Codec ExecuteAnswer where
  write a := .obj <|
    [("host", write a.host), ("stdout", write a.stdout), ("stderr", write a.stderr),
      ("exit_code", write a.exitCode)] ++
      Json.member? "elevated_with" (a.elevatedWith.map write)
  read := Record.read 5 fun s => do
    let host ← (s 0 "host").required
    let stdout ← (s 1 "stdout").required
    let stderr ← (s 2 "stderr").required
    let exitCode ← (s 3 "exit_code").required
    let elevatedWith ← (s 4 "elevated_with").skippable
    some ⟨host, stdout, stderr, exitCode, elevatedWith⟩

instance : Codec ConnectionInfo where
  write c := .obj
    [("id", write c.id), ("key", write c.key), ("connected_at", write c.connectedAt),
      ("idle_secs", write c.idleSecs), ("via_jump_host", write c.viaJumpHost)]
  read := Record.read 5 fun s => do
    let id ← (s 0 "id").required
    let key ← (s 1 "key").required
    let connectedAt ← (s 2 "connected_at").required
    let idleSecs ← (s 3 "idle_secs").required
    let viaJumpHost ← (s 4 "via_jump_host").required
    some ⟨id, key, connectedAt, idleSecs, viaJumpHost⟩

instance : Codec ConnectionList where
  write l := .obj [("connections", write l.connections), ("count", write l.count)]
  read := Record.read 2 fun s => do
    let connections ← (s 0 "connections").required
    let count ← (s 1 "count").required
    some ⟨connections, count⟩

instance : Codec ResetAnswer where
  write a := .obj [("host", write a.host), ("reset", write a.reset), ("message", write a.message)]
  read := Record.read 3 fun s => do
    let host ← (s 0 "host").required
    let reset ← (s 1 "reset").required
    let message ← (s 2 "message").required
    some ⟨host, reset, message⟩

instance : Codec DisconnectAnswer where
  write a := .obj <|
    Json.member? "host" (a.host.map write) ++
      [("closed", write a.closed), ("message", write a.message)]
  read := Record.read 3 fun s => do
    let host ← (s 0 "host").skippable
    let closed ← (s 1 "closed").required
    let message ← (s 2 "message").required
    some ⟨host, closed, message⟩

instance : Codec ClearAnswer where
  write a := .obj <|
    Json.member? "host" (a.host.map write) ++
      [("cleared", write a.cleared), ("message", write a.message)]
  read := Record.read 3 fun s => do
    let host ← (s 0 "host").skippable
    let cleared ← (s 1 "cleared").required
    let message ← (s 2 "message").required
    some ⟨host, cleared, message⟩

instance : Codec Circuit.Status where
  write t := .obj
    [("host", write t.host), ("state", write t.state), ("failure_count", write t.failures),
      ("cooldown_remaining_secs", write t.remainingSecs)]
  read := Record.read 4 fun s => do
    let host ← (s 0 "host").required
    let state ← (s 1 "state").required
    let failures ← (s 2 "failure_count").required
    let remainingSecs ← (s 3 "cooldown_remaining_secs").required
    some ⟨host, state, failures, remainingSecs⟩

instance : Codec Elevation.Attempt where
  write a := .obj [("method", write a.method), ("outcome", write a.outcome)]
  read := Record.read 2 fun s => do
    let method ← (s 0 "method").required
    let outcome ← (s 1 "outcome").required
    some ⟨method, outcome⟩

instance : Codec Elevation.Summary where
  write t := .obj
    [("user", write t.user), ("is_root", write t.isRoot), ("groups", write t.groups),
      ("available_methods", write t.available), ("failed_methods", write t.failed),
      ("verified_methods", write t.verified)]
  read := Record.read 6 fun s => do
    let user ← (s 0 "user").required
    let isRoot ← (s 1 "is_root").required
    let groups ← (s 2 "groups").required
    let available ← (s 3 "available_methods").required
    let failed ← (s 4 "failed_methods").required
    let verified ← (s 5 "verified_methods").required
    some ⟨user, isRoot, groups, available, failed, verified⟩

instance : Codec Pool.Stats where
  write t := .obj
    [("total", write t.total), ("max_connections", write t.maxConnections),
      ("per_host", write t.perHost), ("created", write t.created), ("reused", write t.reused),
      ("evicted", write t.evicted), ("closed", write t.closed)]
  read := Record.read 7 fun s => do
    let total ← (s 0 "total").required
    let maxConnections ← (s 1 "max_connections").required
    let perHost ← (s 2 "per_host").required
    let created ← (s 3 "created").required
    let reused ← (s 4 "reused").required
    let evicted ← (s 5 "evicted").required
    let closed ← (s 6 "closed").required
    some ⟨total, maxConnections, perHost, created, reused, evicted, closed⟩

/-- A pooled connection as operators see it; `id` and `connectedAt` are what the service calls
them by. -/
def Pool.Entry.info (e : Pool.Entry) (id connectedAt : String) (now : Instant) :
    ConnectionInfo where
  id := id
  key := e.key
  connectedAt := connectedAt
  idleSecs := .ofNat (e.idle now).secs
  viaJumpHost := e.jumped

end RemoteShell
