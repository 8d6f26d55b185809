import RemoteShell.Request
import RemoteShell.Shell

/-!
# Elevation methods

The five ways to run a command with the rights of the superuser, the order in which they are
tried, and the command line that each of them makes of a command.

## Main definitions

* `Method`, `Method.order`: the methods, cheapest first; `su` is last, because it takes a
  password that is not the user's own.
* `PasswordKind`: whose password a method asks for.
* `Method.build`: the command line, input and terminal of an elevated command.
* `Outcome`, `Attempt`: why a method did not run a command.
-/

namespace RemoteShell.Elevation

/-- A way to run a command with the rights of the superuser. -/
inductive Method where
  | sudo
  | doas
  -- `sudo` with the user's password on its standard input.
  | sudoPassword
  -- `doas` with the user's password on the terminal.
  | doasPassword
  -- `su` with the root password on the terminal.
  | su
  deriving DecidableEq, Repr

/-- Whose password a method asks for. -/
inductive PasswordKind where
  | user
  | root
  deriving DecidableEq, Repr

/-- The name of a kind of password inside the names of stored secrets. -/
def PasswordKind.space : PasswordKind → String
  | .user => "user"
  | .root => "root"

/-- The name of a kind of password in descriptions. -/
def PasswordKind.label : PasswordKind → String
  | .user => "User"
  | .root => "Root"

namespace Method

/-- The order in which methods are tried. -/
def order : List Method := [.sudo, .doas, .sudoPassword, .doasPassword, .su]

/-- The name of a method. -/
def name : Method → String
  | .sudo => "sudo"
  | .doas => "doas"
  | .sudoPassword => "sudo_with_password"
  | .doasPassword => "doas_with_password"
  | .su => "su"

/-- The name of a method in descriptions. -/
def label : Method → String
  | .sudo => "SudoNoPassword"
  | .doas => "DoasNoPassword"
  | .sudoPassword => "SudoWithPassword"
  | .doasPassword => "DoasWithPassword"
  | .su => "Su"

/-- The method of a name. -/
def ofName? (s : String) : Option Method := order.find? (·.name == s)

/-- The place of a method in the order. -/
def rank (m : Method) : Nat := order.idxOf m

/-- The password that a method asks for, if any. -/
def passwordKind? : Method → Option PasswordKind
  | .sudo | .doas => none
  | .sudoPassword | .doasPassword => some .user
  | .su => some .root

/-- Does the method ask for a password? -/
def needsPassword (m : Method) : Bool := m.passwordKind?.isSome

/-- The program that does the elevation. -/
def program : Method → String
  | .sudo | .sudoPassword => "sudo"
  | .doas | .doasPassword => "doas"
  | .su => "su"

/-- The words in front of the elevated command, with the blank behind them. -/
def lead : Method → String
  | .sudo => "sudo -n sh -c "
  | .doas => "doas -n sh -c "
  | .sudoPassword => "sudo -S -p '' sh -c "
  | .doasPassword => "doas sh -c "
  | .su => "su root -c "

/-- Does the method read its password from a terminal? -/
def onTerminal : Method → Bool
  | .doasPassword | .su => true
  | _ => false

end Method

/-- A command line that runs a command with the rights of the superuser. -/
structure Wrapped where
  command : String
  stdin : Option String
  pty : Bool
  deriving DecidableEq, Repr

/-- The request that runs a wrapped command. -/
def Wrapped.request (w : Wrapped) (timeout : Duration) : Request :=
  ⟨w.command, timeout, w.stdin, w.pty⟩

/-- The description of a wrapped command; the password is never shown. -/
def Wrapped.description (w : Wrapped) : String :=
  Text.described "ElevatedCommand"
    [("command", Text.quoted w.command),
      ("stdin", Text.optional (fun _ => Text.quoted Text.redacted) w.stdin),
      ("pty", toString w.pty)]

/-- Wrap a command for a method.  The command becomes one quoted word, and the password is only
ever written to the standard input. -/
def Method.build (m : Method) (command : String) (password : Option String) : Wrapped where
  command := m.lead ++ Shell.quote command
  stdin := if m.needsPassword then password.map (· ++ "\n") else none
  pty := m.onTerminal

/-- Why a method did not run a command. -/
inductive Outcome where
  | unavailable
  -- It failed earlier and is skipped until the record of the host is cleared.
  | previouslyFailed
  | declined
  -- The check of the password did not print the superuser's name.
  | wrongPassword
  | timedOut
  -- A method without a password ran but did not give the superuser's rights.
  | rejected
  deriving DecidableEq, Repr

namespace Outcome

/-- All outcomes. -/
def all : List Outcome :=
  [.unavailable, .previouslyFailed, .declined, .wrongPassword, .timedOut, .rejected]

/-- The name of an outcome. -/
def name : Outcome → String
  | .unavailable => "unavailable"
  | .previouslyFailed => "previously_failed"
  | .declined => "declined"
  | .wrongPassword => "wrong_password"
  | .timedOut => "timed_out"
  | .rejected => "rejected"

/-- The outcome of a name. -/
def ofName? (s : String) : Option Outcome := all.find? (·.name == s)

/-- An outcome in words. -/
def text : Outcome → String
  | .unavailable => "not available"
  | .previouslyFailed => "failed earlier"
  | .declined => "no password given"
  | .wrongPassword => "wrong password"
  | .timedOut => "timed out"
  | .rejected => "did not yield root"

end Outcome

/-- A method that did not run a command, and why. -/
structure Attempt where
  method : Method
  outcome : Outcome
  deriving DecidableEq, Repr

/-- An attempt in words. -/
def Attempt.text (a : Attempt) : String := a.method.name ++ ": " ++ a.outcome.text

end RemoteShell.Elevation
