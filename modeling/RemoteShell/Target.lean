import RemoteShell.Fault

/-!
# Targets

Where a connection goes: the host and port, the user, an own key file, and a jump host in front.

## Main definitions

* `Login`: the account that a connection is for, and its text `user@host:port`.
* `Hop`, `Hop.parse`: a jump host, and its reading from `[user@]host[:port]`.
* `Target`, `Target.login`, `Target.loginUser`, `Target.validate`.
-/

namespace RemoteShell

/-- The port of the protocol. -/
def defaultPort : UInt16 := 22

/-- The account that a connection is for, whatever jump host is in front of it. -/
structure Login where
  user : String
  host : String
  port : UInt16
  deriving DecidableEq, Repr, Inhabited

namespace Login

/-- The account of a user, a host and a port; an absent or empty user goes by the name
`default`. -/
def of (user : Option String) (host : String) (port : UInt16) : Login :=
  ⟨(user.filter fun u => !u.isEmpty).getD "default", host, port⟩

/-- The text `user@host:port`. -/
def text (k : Login) : String := k.user ++ "@" ++ k.host ++ ":" ++ toString k.port.toNat

/-- The order by user, then host, then port. -/
def before (a b : Login) : Bool :=
  if a.user ≠ b.user then a.user < b.user
  else if a.host ≠ b.host then a.host < b.host
  else a.port < b.port

/-- Before or equal. -/
def notAfter (a b : Login) : Bool := !b.before a

/-- A list of accounts in order, each once. -/
def sorted (ks : List Login) : List Login := ks.eraseDups.mergeSort notAfter

end Login

/-- A port must lie in 1 to 65535. -/
def checkPort (port : Nat) : Except Fault UInt16 :=
  if 1 ≤ port ∧ port ≤ 65535 then .ok (UInt16.ofNat port)
  else .error (.invalidInput ("port " ++ toString port ++ " out of range 1-65535"))

/-- A jump host. -/
structure Hop where
  host : String
  port : UInt16
  user : String
  -- The path of the key file, if it has its own.
  keyPath : Option String
  deriving DecidableEq, Repr

namespace Hop

/-- The host and port of `host[:port]`, read from the right. -/
def parseAddress (s : List Char) : Except Fault (List Char × UInt16) :=
  match Text.splitLast? ':' s with
  | none => .ok (s, defaultPort)
  | some (host, port) =>
    match Text.natOf? (UInt32.size - 1) port with
    | none =>
      .error (.invalidInput ("invalid jump host port '" ++ String.ofList port ++ "'"))
    | some n => (checkPort n).map fun p => (host, p)

/-- The user and the rest of `[user@]rest`, read from the right. -/
def parseUser (s : List Char) (defaultUser : String) : Except Fault (String × List Char) :=
  match Text.splitLast? '@' s with
  | none => .ok (defaultUser, s)
  | some ([], _) => .error (.invalidInput "jump host user cannot be empty")
  | some (user, rest) => .ok (String.ofList user, rest)

/-- Read `[user@]host[:port]`; blanks at either end do not count. -/
def parse (value defaultUser : String) : Except Fault Hop := do
  let (user, rest) ← parseUser (Text.trimmed value.toList) defaultUser
  let (host, port) ← parseAddress rest
  if host.isEmpty then
    throw (.invalidInput "jump host cannot be empty")
  pure ⟨String.ofList host, port, user, none⟩

end Hop

/-- Where a connection goes. -/
structure Target where
  host : String
  port : UInt16
  -- The user, if one is asked for.
  user : Option String
  keyPath : Option String
  -- The jump host in front, if there is one.
  hop : Option Hop
  deriving DecidableEq, Repr

namespace Target

/-- The account that a connection to the target is kept under. -/
def login (t : Target) : Login := Login.of t.user t.host t.port

/-- The user who logs in: the one asked for, else the local user, else the superuser. -/
def loginUser (t : Target) (localUser : Option String) : String :=
  ((t.user.filter fun u => !u.isEmpty).or localUser).getD "root"

/-- Refuse a blank host and port zero, on the target and on its jump host. -/
def validate (t : Target) : Except Fault Unit := do
  if Text.isBlankText t.host then
    throw (.invalidInput "host cannot be empty")
  let _ ← checkPort t.port.toNat
  match t.hop with
  | none => pure ()
  | some hop =>
    if Text.isBlankText hop.host then
      throw (.invalidInput "jump host cannot be empty")
    let _ ← checkPort hop.port.toNat
    pure ()

end Target

end RemoteShell
