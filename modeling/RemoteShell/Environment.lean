import RemoteShell.Assoc
import RemoteShell.Text.Basic

/-!
# Environment and paths

The environment variables that steer the service, and the paths that depend on them.

## Main definitions

* `Environment`, `Environment.text?`: the variables whose values are text.
* `Path.join`, `Path.expandHome`: paths relative to a directory and to the home directory.
-/

namespace RemoteShell

/-- The environment variables, with those left out whose values are not text. -/
structure Environment where
  vars : Assoc String String
  deriving Repr

namespace Environment

/-- The value of a variable. -/
def text? (e : Environment) (name : String) : Option String := e.vars.get? name

/-- The value of a variable, unless it is empty. -/
def filled? (e : Environment) (name : String) : Option String :=
  (e.text? name).filter fun v => !v.isEmpty

/-- The home directory, for which the variable `HOME` stands.  A system may keep one on record for a
user without the variable; such a record is no part of the environment, and there is none here. -/
def home? (e : Environment) : Option String := e.filled? "HOME"

/-- The local user. -/
def user? (e : Environment) : Option String := e.text? "USER"

end Environment

namespace Path

/-- A path relative to a directory.  A path from the root stands for itself. -/
def join (base path : String) : String :=
  if Text.startsWith path "/" then path
  else if base.isEmpty || base.toList.getLast? == some '/' then base ++ path
  else base ++ "/" ++ path

/-- A path in which a leading `~` stands for the home directory; `~user` stands for itself. -/
def expandHome (e : Environment) (path : String) : String :=
  match e.home?, path.toList with
  | some home, ['~'] => home
  | some home, '~' :: '/' :: rest => join home (String.ofList rest)
  | _, _ => path

/-- The key files that are looked for in the home directory, in order. -/
def defaultKeys (e : Environment) : List String :=
  match e.home? with
  | none => []
  | some home => ["id_ed25519", "id_ecdsa", "id_rsa"].map fun n => join (join home ".ssh") n

end Path

end RemoteShell
