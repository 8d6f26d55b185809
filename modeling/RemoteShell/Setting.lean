import RemoteShell.Circuit.Breaker
import RemoteShell.Environment

/-!
# Settings

Every setting is resolved the same way: a value that is given wins, then a readable value in the
environment, then the default.

## Main definitions

* `Setting.resolve` and the settings made with it.
* `Settings`, `Settings.standard`, `Settings.ofEnvironment`.
-/

namespace RemoteShell

namespace Setting

/-- A number that is given, else a readable number in the environment, else the default. -/
def resolve (bound : Nat) (e : Environment) (name : String) (standard : Nat)
    (given : Option Nat) : Nat :=
  match given with
  | some n => n
  | none =>
    (((e.text? name).map Text.trim).bind (Text.parseNat? bound)).getD standard

/-- The largest number of 64 bits. -/
def max64 : Nat := UInt64.size - 1

/-- The largest number of 32 bits. -/
def max32 : Nat := UInt32.size - 1

/-- How long a connection may take, in seconds. -/
def connectTimeout (e : Environment) (given : Option Nat) : Duration :=
  .ofSecs (resolve max64 e "SSH_CONNECT_TIMEOUT" 30 given)

/-- How long a command may take, in seconds. -/
def commandTimeout (e : Environment) (given : Option Nat) : Duration :=
  .ofSecs (resolve max64 e "SSH_COMMAND_TIMEOUT" 180 given)

/-- How often a call is tried, the first time included. -/
def maxRetries (e : Environment) (given : Option Nat) : Nat :=
  resolve max32 e "SSH_MAX_RETRIES" 3 given

/-- The wait before the second try, in milliseconds. -/
def retryDelay (e : Environment) (given : Option Nat) : Duration :=
  .ofMillis (resolve max64 e "SSH_RETRY_DELAY_MS" 1000 given)

/-- A text in which the capital letters of ASCII are small. -/
def asciiLower (s : String) : String := String.ofList (s.toList.map Char.toLower)

/-- Is compression asked for?  In the environment `true` in any case and `1` say so, and every
other value says no. -/
def compression (e : Environment) (given : Option Bool) : Bool :=
  match given, e.text? "SSH_COMPRESSION" with
  | some b, _ => b
  | none, some v => asciiLower v == "true" || v == "1"
  | none, none => true

/-- How many connections are kept, at least one. -/
def poolMaxConnections (e : Environment) (given : Option Nat) : Nat :=
  max 1 (resolve max64 e "SSH_POOL_MAX_CONNECTIONS" 50 given)

/-- How long a connection may be idle, in seconds. -/
def poolIdleTimeout (e : Environment) (given : Option Nat) : Duration :=
  .ofSecs (resolve max64 e "SSH_POOL_IDLE_TIMEOUT" 300 given)

/-- How many failures in a row open a circuit, at least one. -/
def circuitThreshold (e : Environment) (given : Option Nat) : Nat :=
  max 1 (resolve max32 e "SSH_CIRCUIT_THRESHOLD" 5 given)

/-- How long an open circuit refuses calls, in seconds. -/
def circuitCooldown (e : Environment) (given : Option Nat) : Duration :=
  .ofSecs (resolve max64 e "SSH_CIRCUIT_COOLDOWN" 60 given)

/-- How long the check of a method of elevation may take, in seconds. -/
def elevationVerifyTimeout (e : Environment) (given : Option Nat) : Duration :=
  .ofSecs (resolve max64 e "SSH_ELEVATION_VERIFY_TIMEOUT" 10 given)

end Setting

/-- The settings of a pool of connections. -/
structure PoolSettings where
  maxConnections : Nat
  idleTimeout : Duration
  connectTimeout : Duration
  deriving DecidableEq, Repr

/-- The settings of repeated tries. -/
structure RetrySettings where
  -- How often a call is tried, the first time included.
  maxRetries : Nat
  -- The wait before the second try.
  retryDelay : Duration
  -- The longest wait that doubling leads to.
  maxDelay : Duration
  deriving DecidableEq, Repr

/-- The settings of elevation. -/
structure ElevationSettings where
  verifyTimeout : Duration
  -- How long each probe of what a host offers may take.
  detectTimeout : Duration
  deriving DecidableEq, Repr

/-- The settings of the search for credentials. -/
structure CredentialSettings where
  agentSocket : Option String
  -- The key files that are looked for, in order.
  defaultKeys : List String
  compression : Bool
  deriving DecidableEq, Repr

/-- The agent's socket: the one that is set, else the one in the environment. -/
def CredentialSettings.socket? (s : CredentialSettings) (e : Environment) : Option String :=
  s.agentSocket.or (e.filled? "SSH_AUTH_SOCK")

/-- All settings of a service. -/
structure Settings where
  pool : PoolSettings
  retry : RetrySettings
  circuit : Circuit.Policy
  elevation : ElevationSettings
  credentials : CredentialSettings
  commandTimeout : Duration
  deriving Repr

namespace Settings

/-- The settings of a service that is told nothing; only the key files depend on the home
directory. -/
def standard (e : Environment) : Settings where
  pool := ⟨50, .ofSecs 300, .ofSecs 30⟩
  retry := ⟨3, .ofMillis 1000, .ofSecs 10⟩
  circuit := ⟨5, .ofSecs 60⟩
  elevation := ⟨.ofSecs 10, .ofSecs 10⟩
  credentials := ⟨none, Path.defaultKeys e, true⟩
  commandTimeout := .ofSecs 180

/-- The settings that the environment asks for. -/
def ofEnvironment (e : Environment) : Settings where
  pool := ⟨Setting.poolMaxConnections e none, Setting.poolIdleTimeout e none,
    Setting.connectTimeout e none⟩
  retry := ⟨Setting.maxRetries e none, Setting.retryDelay e none, .ofSecs 10⟩
  circuit := ⟨UInt32.ofNat (Setting.circuitThreshold e none), Setting.circuitCooldown e none⟩
  elevation := ⟨Setting.elevationVerifyTimeout e none, .ofSecs 10⟩
  credentials := ⟨none, Path.defaultKeys e, Setting.compression e none⟩
  commandTimeout := Setting.commandTimeout e none

end Settings

end RemoteShell
