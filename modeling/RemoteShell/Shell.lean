/-!
# Shell words

Quoting for the POSIX shell.  Inside single quotes every character stands for itself, and a
single quote is written by leaving the quotes, quoting it in double quotes, and entering them
again.

## Main definitions

* `escape`: a text that is going to stand between single quotes.
* `quote`: a text as one word of a command line.
-/

namespace RemoteShell.Shell

/-- How a character is written inside single quotes. -/
def escapeChar (c : Char) : List Char :=
  if c = '\'' then ['\'', '"', '\'', '"', '\''] else [c]

/-- A text as it is written inside single quotes. -/
def escaped (s : List Char) : List Char := s.flatMap escapeChar

/-- A text as it is written inside single quotes. -/
def escape (s : String) : String := String.ofList (escaped s.toList)

/-- A text between single quotes. -/
def quoted (s : List Char) : List Char := ['\''] ++ escaped s ++ ['\'']

/-- A text as one word of a command line. -/
def quote (s : String) : String := String.ofList (quoted s.toList)

end RemoteShell.Shell
