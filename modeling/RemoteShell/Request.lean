import RemoteShell.Text.Quoted
import RemoteShell.Time

/-!
# Requests and replies

What is sent to a remote shell and what comes back.

## Main definitions

* `Request`: a command with its time limit, its standard input and the wish for a terminal.
* `Reply`: what a finished command printed and its exit code.
-/

namespace RemoteShell

/-- A command to run on a remote host. -/
structure Request where
  -- The command line, read by the login shell of the remote account.
  command : String
  timeout : Duration
  -- What is written to the standard input, which is then closed.
  stdin : Option String
  pty : Bool
  deriving DecidableEq, Repr

/-- A command without input and without a terminal. -/
def Request.plain (command : String) (timeout : Duration) : Request :=
  ⟨command, timeout, none, false⟩

/-- The description of a request; the input may hold a password and is never shown. -/
def Request.description (r : Request) : String :=
  Text.described "ExecRequest"
    [("command", Text.quoted r.command), ("timeout", r.timeout.text),
      ("stdin", Text.optional (fun _ => Text.quoted Text.redacted) r.stdin),
      ("pty", toString r.pty)]

/-- What a finished command printed, and its exit code. -/
structure Reply where
  stdout : String
  stderr : String
  -- The exit code; zero means success.
  exitCode : Int32
  deriving DecidableEq, Repr

/-- Did the command succeed? -/
def Reply.success (r : Reply) : Bool := r.exitCode == 0

end RemoteShell
