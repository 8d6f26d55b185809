import RemoteShell.Environment
import RemoteShell.Text.Case
import RemoteShell.Text.Quoted

/-!
# Operators

Who answers prompts.  A service without a person behind it reads its answers from environment
variables, and tells from the words of a prompt which of them is meant.

## Main definitions

* `Choice`: the operator's choice of a way to log in.
* `Operator`: who answers; `Operator.secret`, `Operator.challenge`, `Operator.choice`.
* `variableFor`: the variable that a prompt is answered from.
-/

namespace RemoteShell.Credential

/-- The operator's choice of a way to log in. -/
inductive Choice where
  | password (s : String)
  | keyFile (path : String)
  | interactive
  deriving DecidableEq, Repr

/-- The description of a choice; a password is never shown. -/
def Choice.description : Choice → String
  | .password _ => "Password(" ++ Text.redacted ++ ")"
  | .keyFile path => "KeyFile(" ++ Text.quoted path ++ ")"
  | .interactive => "KeyboardInteractive"

/-- The variable that a prompt for a secret is answered from: a prompt that speaks of a passphrase
means a key file, one that speaks of the root password means `su`, any other means `sudo` or
`doas`. -/
def variableFor (message : String) : String :=
  let lower := Text.lowercase message
  if Text.contains lower "passphrase" then "SSH_KEY_PASSPHRASE"
  else if Text.contains lower "root password" then "SSH_SU_PASSWORD"
  else "SSH_SUDO_PASSWORD"

/-- Who answers prompts without a person. -/
inductive Operator where
  | nobody
  | environment (e : Environment)
  deriving Repr

namespace Operator

/-- The answer to a prompt for a secret; none when it is declined. -/
def secret : Operator → String → Option String
  | .nobody, _ => none
  | .environment e, message => e.filled? (variableFor message)

/-- The answer to one question of a host; only a question for a password can be answered. -/
def answer : Operator → String → String
  | .nobody, _ => ""
  | .environment e, question =>
    if Text.contains (Text.lowercase question) "password" then
      (e.filled? "SSH_PASSWORD").getD ""
    else ""

/-- The answers to the questions of a host. -/
def challenge (o : Operator) (questions : List String) : List String := questions.map o.answer

/-- The choice of a way to log in. -/
def choice : Operator → Option Choice
  | .nobody => none
  | .environment e => (e.filled? "SSH_PASSWORD").map .password

end Operator

end RemoteShell.Credential
