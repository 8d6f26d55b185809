import RemoteShell.Execution
import RemoteShell.Wire

/-!
# Tools

The tools that a service offers to its operators: their names, their arguments, and their answers.
Arguments are read as a record of their fields; a call of an unknown tool and a call with arguments
of another shape are refused before anything happens.

## Main definitions

* `Tool`, `Tool.all`, `Tool.parameters`: the tools in their order, with their arguments.
* `Tool.Call`, `Tool.read`: a call of a tool, and its reading from a name and arguments.
* `Tool.target`: the target that the arguments of a command name.
* `Tool.Answer` and the answers that need no connection.
-/

namespace RemoteShell

/-- The tools. -/
inductive Tool where
  | execute
  | circuitStatus
  | resetCircuit
  | disconnect
  | disconnectAll
  | clearElevation
  | listConnections
  | poolStats
  deriving DecidableEq, Repr

/-- An argument of a tool. -/
structure Parameter where
  name : String
  required : Bool
  deriving DecidableEq, Repr

namespace Tool

/-- The tools in their order. -/
def all : List Tool :=
  [.execute, .circuitStatus, .resetCircuit, .disconnect, .disconnectAll, .clearElevation,
    .listConnections, .poolStats]

/-- The name of a tool. -/
def name : Tool → String
  | .execute => "ssh_execute"
  | .circuitStatus => "ssh_circuit_status"
  | .resetCircuit => "ssh_reset_circuit"
  | .disconnect => "ssh_disconnect"
  | .disconnectAll => "ssh_disconnect_all"
  | .clearElevation => "ssh_clear_elevation_cache"
  | .listConnections => "ssh_list_connections"
  | .poolStats => "ssh_pool_stats"

/-- The tool of a name. -/
def ofName? (s : String) : Option Tool := all.find? (·.name == s)

/-- The arguments of a tool in their order. -/
def parameters : Tool → List Parameter
  | .execute =>
    [⟨"host", true⟩, ⟨"command", true⟩, ⟨"port", false⟩, ⟨"username", false⟩,
      ⟨"key_path", false⟩, ⟨"jump_host", false⟩, ⟨"timeout_secs", false⟩, ⟨"elevate", false⟩]
  | .circuitStatus | .resetCircuit | .disconnect => [⟨"host", true⟩]
  | .clearElevation => [⟨"host", false⟩]
  | .disconnectAll | .listConnections | .poolStats => []

/-- The arguments of a command. -/
structure ExecuteArgs where
  host : String
  command : String
  port : Option UInt32
  user : Option String
  keyPath : Option String
  jumpHost : Option String
  -- How long the command may take, in seconds.
  timeoutSecs : Option UInt64
  elevate : Option Bool
  deriving DecidableEq, Repr

/-- A call of a tool. -/
inductive Call where
  | execute (a : ExecuteArgs)
  | circuitStatus (host : String)
  | resetCircuit (host : String)
  | disconnect (host : String)
  | disconnectAll
  | clearElevation (host : Option String)
  | listConnections
  | poolStats
  deriving DecidableEq, Repr

/-- Why a call is refused. -/
inductive Refusal where
  | unknownTool
  -- The arguments have another shape.
  | badArguments
  deriving DecidableEq, Repr

/-- The code of a refusal. -/
def Refusal.code : Refusal → Int
  | .unknownTool => -32601
  | .badArguments => -32602

/-- Read the arguments of a command. -/
def readExecute : Json → Option ExecuteArgs :=
  Record.read 8 fun s => do
    let host ← (s 0 "host").required
    let command ← (s 1 "command").required
    let port ← (s 2 "port").optional
    let user ← (s 3 "username").optional
    let keyPath ← (s 4 "key_path").optional
    let jumpHost ← (s 5 "jump_host").optional
    let timeoutSecs ← (s 6 "timeout_secs").optional
    let elevate ← (s 7 "elevate").optional
    some ⟨host, command, port, user, keyPath, jumpHost, timeoutSecs, elevate⟩

/-- Read the only argument, a host. -/
def readHost : Json → Option String := Record.read 1 fun s => (s 0 "host").required

/-- Read the only argument, a host that may be left out. -/
def readOptionalHost : Json → Option (Option String) :=
  Record.read 1 fun s => (s 0 "host").optional

/-- Read a call without arguments. -/
def readNothing : Json → Option Unit := Record.read 0 fun _ => some ()

/-- Read the arguments of a tool. -/
def readArguments (t : Tool) (args : Json) : Option Call :=
  match t with
  | .execute => (readExecute args).map .execute
  | .circuitStatus => (readHost args).map .circuitStatus
  | .resetCircuit => (readHost args).map .resetCircuit
  | .disconnect => (readHost args).map .disconnect
  | .disconnectAll => (readNothing args).map fun _ => .disconnectAll
  | .clearElevation => (readOptionalHost args).map .clearElevation
  | .listConnections => (readNothing args).map fun _ => .listConnections
  | .poolStats => (readNothing args).map fun _ => .poolStats

/-- Read a call of a tool. -/
def read (name : String) (args : Json) : Except Refusal Call :=
  match ofName? name with
  | none => .error .unknownTool
  | some t =>
    match readArguments t args with
    | none => .error .badArguments
    | some c => .ok c

/-- A text that counts only when it is not empty. -/
def filled (s : Option String) : Option String := s.filter fun x => !x.isEmpty

/-- The target that the arguments of a command name. -/
def target (e : Environment) (a : ExecuteArgs) : Except Fault Target := do
  let port ← match a.port with
    | none => pure defaultPort
    | some n => checkPort n.toNat
  let t : Target := ⟨a.host, port, filled a.user, filled a.keyPath, none⟩
  match filled a.jumpHost with
  | none => pure t
  | some hop => return { t with hop := some (← Hop.parse hop (t.loginUser e.user?)) }

/-- The task that the arguments of a command name. -/
def task (e : Environment) (retry : RetrySettings) (a : ExecuteArgs) :
    Except Fault Execution.Task := do
  let t ← target e a
  let timeout := Setting.commandTimeout e (a.timeoutSecs.map UInt64.toNat)
  pure ⟨t, a.command, timeout, a.elevate.getD true, retry⟩

/-! ## Answers -/

/-- The answer of a tool. -/
inductive Answer where
  | refused (r : Refusal)
  -- The call failed; the answer is the fault in words.
  | failed (f : Fault)
  | value (j : Json)
  | connections (l : ConnectionList)

/-- The answer to a command. -/
def executeAnswer (host : String) : Except Fault Execution.Outcome → Answer
  | .error f => .failed f
  | .ok o => .value (write
      ({ host := host
         stdout := o.reply.stdout
         stderr := o.reply.stderr
         exitCode := o.reply.exitCode
         elevatedWith := o.method.map Elevation.Method.name } : ExecuteAnswer))

/-- The answer to the closing of a circuit. -/
def resetAnswer (host : String) (reset : Bool) : Answer :=
  .value (write
    (⟨host, reset, (if reset then "Circuit for " ++ host ++ " reset"
      else "No circuit recorded for " ++ host)⟩ : ResetAnswer))

/-- The answer to the closing of connections. -/
def disconnectAnswer (host : Option String) (closed : Nat) : Answer :=
  let words := "Closed " ++ toString closed ++ " connection(s)" ++
    match host with
    | none => ""
    | some h => " to " ++ h
  .value (write (⟨host, .ofNat closed, words⟩ : DisconnectAnswer))

/-- The answer to the forgetting of profiles. -/
def clearAnswer (host : Option String) (cleared : Nat) : Answer :=
  let words := "Cleared elevation cache for " ++ host.getD "all hosts"
  .value (write (⟨host, .ofNat cleared, words⟩ : ClearAnswer))

end Tool

end RemoteShell
