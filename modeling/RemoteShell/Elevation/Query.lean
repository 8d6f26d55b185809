import RemoteShell.Dialogue
import RemoteShell.Elevation.Profile
import RemoteShell.Fault

/-!
# Questions of elevation

What elevation asks others: to run a command on the host, to prompt the operator, to look after
stored secrets, and to keep the profile of the login.

## Main definitions

* `Errand`, `Errand.request`: the commands that are run, by what they are for, and what is sent.
* `Query`, `Query.Answer`: the questions and their answers.
* `Talk`: a dialogue of such questions.
-/

namespace RemoteShell.Elevation

/-- A command that elevation runs on the host, by what it is for. -/
inductive Errand where
  -- To find out something about the login.
  | probe (command : String) (limit : Duration)
  -- To check a method.
  | check (m : Method) (password : Option String) (limit : Duration)
  -- What the caller wants to be run: as it is, or with a method.
  | plain (command : String) (timeout : Duration)
  | elevated (m : Method) (password : Option String) (command : String) (timeout : Duration)
  deriving DecidableEq, Repr

/-- What is sent to the host.  The check of a method asks for the name of the user. -/
def Errand.request : Errand → Request
  | .probe command limit => .plain command limit
  | .check m password limit => (m.build "whoami" password).request limit
  | .plain command timeout => .plain command timeout
  | .elevated m password command timeout => (m.build command password).request timeout

/-- What elevation asks others. -/
inductive Query where
  | run (e : Errand)
  | prompt (message : String)
  | fetch (name : String)
  | store (name secret : String)
  | erase (name : String)
  | keep (p : Profile)

/-- The answers to a question. -/
abbrev Query.Answer : Query → Type
  | .run _ => Except Fault Reply
  | .prompt _ => Option String
  | .fetch _ => Option String
  | .store .. => Unit
  | .erase _ => Unit
  | .keep _ => Unit

/-- A dialogue of elevation. -/
abbrev Talk (α : Type) : Type := Dialogue Query Query.Answer α

namespace Talk

/-- Run a command on the host. -/
def run (e : Errand) : Talk (Except Fault Reply) := Dialogue.question (Query.run e)

/-- Ask the operator for a secret. -/
def prompt (message : String) : Talk (Option String) := Dialogue.question (Query.prompt message)

/-- Look up a stored secret. -/
def fetch (name : String) : Talk (Option String) := Dialogue.question (Query.fetch name)

/-- Store a secret. -/
def store (name secret : String) : Talk Unit := Dialogue.question (Query.store name secret)

/-- Delete a stored secret. -/
def erase (name : String) : Talk Unit := Dialogue.question (Query.erase name)

/-- Keep the profile of the login. -/
def keep (p : Profile) : Talk Unit := Dialogue.question (Query.keep p)

end Talk

end RemoteShell.Elevation
