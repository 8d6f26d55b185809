import RemoteShell.Text.Quoted

/-!
# Offers of credentials

What is presented to a host to log in: the methods in their order, with the keys, the agent's
socket and the password that they use.

## Main definitions

* `AuthMethod`, `Key`, `Offer`.
* `Offer.ofAgent`, `Offer.ofKey`, `Offer.ofPassword`, `Offer.interactive`.
* `Offer.chain`: the attempts that an offer amounts to.
-/

namespace RemoteShell.Credential

/-- A way to log in. -/
inductive AuthMethod where
  | agent
  | publicKey
  | password
  | interactive
  deriving DecidableEq, Repr

namespace AuthMethod

/-- The name of a method in the protocol. -/
def name : AuthMethod → String
  | .agent => "agent"
  | .publicKey => "publickey"
  | .password => "password"
  | .interactive => "keyboard-interactive"

/-- The name of a method in descriptions. -/
def label : AuthMethod → String
  | .agent => "Agent"
  | .publicKey => "PublicKey"
  | .password => "Password"
  | .interactive => "KeyboardInteractive"

/-- The method of a name in the protocol. -/
def ofName? (s : String) : Option AuthMethod :=
  [AuthMethod.agent, .publicKey, .password, .interactive].find? (·.name == s)

end AuthMethod

/-- A decoded key. -/
structure Key where
  path : String
  algorithm : String
  comment : String
  deriving DecidableEq, Repr

/-- The description of a key. -/
def Key.description (k : Key) : String :=
  Text.described "LoadedKey"
    [("path", Text.quoted k.path), ("algorithm", Text.quoted k.algorithm),
      ("comment", Text.quoted k.comment)]

/-- What is presented to a host to log in. -/
structure Offer where
  order : List AuthMethod
  keys : List Key
  socket : Option String
  password : Option String
  deriving DecidableEq, Repr

namespace Offer

/-- An offer of nothing. -/
def empty : Offer := ⟨[], [], none, none⟩

/-- The keys of an agent, then answers to questions. -/
def ofAgent (socket : String) : Offer :=
  { empty with order := [.agent, .interactive], socket := some socket }

/-- A key from a file, then answers to questions. -/
def ofKey (k : Key) : Offer := { empty with order := [.publicKey, .interactive], keys := [k] }

/-- A password, then answers to questions. -/
def ofPassword (s : String) : Offer :=
  { empty with order := [.password, .interactive], password := some s }

/-- Answers to questions only. -/
def interactive : Offer := { empty with order := [.interactive] }

/-- The first method. -/
def primary (o : Offer) : Option AuthMethod := o.order.head?

/-- The attempts that an offer amounts to: a method is tried once for everything it can use. -/
def chain (o : Offer) : List AuthMethod :=
  o.order.flatMap fun m =>
    match m with
    | .agent => if o.socket.isSome then [m] else []
    | .publicKey => o.keys.map fun _ => m
    | .password => if o.password.isSome then [m] else []
    | .interactive => [m]

/-- The description of an offer; the password is never shown. -/
def description (o : Offer) : String :=
  Text.described "AuthOptions"
    [("preferred_auth_order", Text.listed (o.order.map AuthMethod.label)),
      ("client_keys", Text.listed (o.keys.map Key.description)),
      ("agent_socket_path", Text.optional Text.quoted o.socket),
      ("password", Text.optional (fun _ => Text.quoted Text.redacted) o.password)]

end Offer

end RemoteShell.Credential
