import RemoteShell.Elevation.Method

/-!
# Words of a command line

How a POSIX shell takes a command line apart, before it expands anything: blanks divide words,
operators stand alone, a backslash or quotes take a character's meaning away, and the quotes
themselves are removed.  A character that kept its meaning is told apart from one that lost it, so
that it shows what the shell might still act upon.

A text between quotes as `Shell.quote` writes them is read back as it was, whatever stands in it,
and the command line of an elevated command is read as the words of its method and the command.

## Main definitions

* `Piece`, `Token`: a character of a word, and a word or an operator
* `Lexer`, `Lexer.step`, `lex`: reading a command line character by character
* `split?`: the words of a line that holds nothing but words
* `Elevation.Method.words`: the words of a method in front of the command

## Main results

* `Lexer.read_quoted`: a quoted text becomes part of a word, every character without its meaning
* `split_build`: an elevated command line is read as its words and the command
-/

namespace RemoteShell

namespace Shell

/-! ## Reading a command line -/

/-- A character of a word; one that is not quoted may have a meaning. -/
structure Piece where
  char : Char
  quoted : Bool
  deriving DecidableEq, Repr

/-- A part of a command line. -/
inductive Token where
  | word (w : List Piece)
  -- An operator of several characters is as many operators.
  | operator (c : Char)
  deriving DecidableEq, Repr

/-- What the characters before the next one say about it. -/
inductive Mode where
  | bare
  -- After a backslash.
  | escaped
  | single
  | double
  -- After a backslash in double quotes.
  | doubleEscaped
  | comment
  deriving DecidableEq, Repr

/-- How far a command line has been read. -/
structure Lexer where
  mode : Mode
  -- The word that is being read; an empty one has begun with quotes.
  word : Option (List Piece)
  tokens : List Token
  deriving DecidableEq, Repr

/-- Does a character divide words? -/
def isBlank (c : Char) : Bool := c == ' ' || c == '\t'

/-- Is a character an operator, or part of one?  The end of a line ends a command. -/
def isOperator (c : Char) : Bool := ['\n', '|', '&', ';', '<', '>', '(', ')'].contains c

/-- Does a backslash in double quotes take the meaning of a character away? -/
def isDoubleEscapable (c : Char) : Bool := ['$', '`', '"', '\\'].contains c

namespace Lexer

/-- Nothing has been read. -/
def start : Lexer := ⟨.bare, none, []⟩

/-- The word that is being read has a character more. -/
def add (s : Lexer) (c : Char) (quoted : Bool) : Lexer :=
  { s with word := some (s.word.getD [] ++ [⟨c, quoted⟩]) }

/-- Quotes open a word, or are in one. -/
def enter (s : Lexer) (m : Mode) : Lexer := { s with mode := m, word := some (s.word.getD []) }

/-- The word that is being read is over, if there is one. -/
def close (s : Lexer) : Lexer :=
  { s with word := none, tokens := s.tokens ++ (s.word.map Token.word).toList }

/-- An operator stands alone. -/
def operate (s : Lexer) (c : Char) : Lexer :=
  { s.close with tokens := s.close.tokens ++ [.operator c] }

/-- A character outside of quotes. -/
def stepBare (s : Lexer) (c : Char) : Lexer :=
  if c = '\'' then s.enter .single
  else if c = '"' then s.enter .double
  else if c = '\\' then { s with mode := .escaped }
  else if isBlank c then s.close
  else if isOperator c then s.operate c
  else if c = '#' ∧ s.word.isNone then { s with mode := .comment }
  else s.add c false

/-- A character in double quotes; the dollar sign and the backquote keep their meaning. -/
def stepDouble (s : Lexer) (c : Char) : Lexer :=
  if c = '"' then { s with mode := .bare }
  else if c = '\\' then { s with mode := .doubleEscaped }
  else s.add c (!(c == '$' || c == '`'))

/-- **One character** of a command line. -/
def step (s : Lexer) (c : Char) : Lexer :=
  match s.mode with
  | .bare => s.stepBare c
  -- A backslash at the end of a line joins it to the next one.
  | .escaped => if c = '\n' then { s with mode := .bare } else { s.add c true with mode := .bare }
  | .single => if c = '\'' then { s with mode := .bare } else s.add c true
  | .double => s.stepDouble c
  | .doubleEscaped =>
    if c = '\n' then { s with mode := .double }
    else if isDoubleEscapable c then { s.add c true with mode := .double }
    else { (s.add '\\' true).add c true with mode := .double }
  | .comment => if c = '\n' then { s with mode := .bare }.operate c else s

/-- The characters of a command line, one after another. -/
def read (s : Lexer) (cs : List Char) : Lexer := cs.foldl step s

/-- What was read, if no quotes are left open and no backslash stands at the end. -/
def result? (s : Lexer) : Option (List Token) :=
  match s.mode with
  | .bare | .comment => some s.close.tokens
  | _ => none

theorem read_append (s : Lexer) (cs ds : List Char) : s.read (cs ++ ds) = (s.read cs).read ds :=
  List.foldl_append

theorem read_cons (s : Lexer) (c : Char) (cs : List Char) :
    s.read (c :: cs) = (s.step c).read cs := rfl

end Lexer

/-- The tokens of a command line. -/
def lex (line : List Char) : Option (List Token) := (Lexer.start.read line).result?

/-- The characters outside of quotes that may let the shell replace a word or take it for more than
a word. -/
def isActive (c : Char) : Bool :=
  ['$', '`', '*', '?', '[', ']', '#', '~', '=', '%', '!', '{', '}'].contains c

/-- The text of a word that the shell takes as it stands, the quotes removed. -/
def Token.plain? : Token → Option String
  | .word w =>
    if w.all fun p => p.quoted || !isActive p.char then some (.ofList (w.map Piece.char)) else none
  | .operator _ => none

/-- **The words of a command line** that holds nothing but words, and nothing to be replaced in
them. -/
def split? (line : String) : Option (List String) := (lex line.toList).bind (·.mapM Token.plain?)

/-! ## Quoted texts -/

/-- A character that has lost its meaning. -/
def Piece.literal (c : Char) : Piece := ⟨c, true⟩

/-- A character outside of quotes. -/
def Piece.bare (c : Char) : Piece := ⟨c, false⟩

namespace Lexer

/-- Between single quotes an escaped character adds itself to the word. -/
theorem read_escapeChar (w : List Piece) (ts : List Token) (c : Char) :
    read ⟨.single, some w, ts⟩ (escapeChar c) = ⟨.single, some (w ++ [.literal c]), ts⟩ := by
  unfold escapeChar
  by_cases hc : c = '\''
  · -- Out of the quotes, into double quotes and out of them, and back into single quotes.
    subst hc
    rfl
  · rw [if_neg hc, read_cons, step, if_neg hc]
    rfl

/-- Between single quotes an escaped text adds itself to the word. -/
theorem read_escaped (w : List Piece) (ts : List Token) (s : List Char) :
    read ⟨.single, some w, ts⟩ (escaped s) = ⟨.single, some (w ++ s.map .literal), ts⟩ := by
  induction s generalizing w with
  | nil =>
    rw [List.map_nil, List.append_nil]
    rfl
  | cons c s ih =>
    rw [escaped, List.flatMap_cons, read_append, read_escapeChar]
    rw [escaped] at ih
    rw [ih, List.map_cons, List.append_assoc, List.singleton_append]

/-- **A quoted text becomes part of a word**, and every character of it has lost its meaning. -/
theorem read_quoted (w : Option (List Piece)) (ts : List Token) (s : List Char) :
    read ⟨.bare, w, ts⟩ (quoted s) = ⟨.bare, some (w.getD [] ++ s.map .literal), ts⟩ := by
  have hopen : read ⟨.bare, w, ts⟩ ['\''] = ⟨.single, some (w.getD []), ts⟩ := rfl
  have hclose (v : List Piece) : read ⟨.single, some v, ts⟩ ['\''] = ⟨.bare, some v, ts⟩ := rfl
  rw [quoted, read_append, read_append, hopen, read_escaped, hclose]

end Lexer

/-- After blank-separated words, a quoted text is one word more. -/
theorem lex_append_quoted {lead : List Char} {ts : List Token}
    (hlead : Lexer.start.read lead = ⟨.bare, none, ts⟩) (s : List Char) :
    lex (lead ++ quoted s) = some (ts ++ [.word (s.map .literal)]) := by
  rw [lex, Lexer.read_append, hlead, Lexer.read_quoted]
  rfl

theorem plain?_literal (s : List Char) :
    Token.plain? (.word (s.map .literal)) = some (.ofList s) := by
  have hquoted : (s.map Piece.literal).all (fun p => p.quoted || !isActive p.char) = true := by
    rw [List.all_eq_true]
    intro p hp
    obtain ⟨c, -, rfl⟩ := List.mem_map.mp hp
    rfl
  have hchars : (s.map Piece.literal).map Piece.char = s := by
    rw [List.map_map]
    exact List.map_id s
  rw [Token.plain?, if_pos hquoted, hchars]

end Shell

/-! ## Elevated command lines -/

namespace Elevation

open Shell

/-- The words of a method in front of the command. -/
def Method.words : Method → List String
  | .sudo => ["sudo", "-n", "sh", "-c"]
  | .doas => ["doas", "-n", "sh", "-c"]
  -- The prompt is the empty word.
  | .sudoPassword => ["sudo", "-S", "-p", "", "sh", "-c"]
  | .doasPassword => ["doas", "sh", "-c"]
  | .su => ["su", "root", "-c"]

/-- The words of a method, as the shell sees them. -/
def Method.tokens (m : Method) : List Token := m.words.map fun w => .word (w.toList.map .bare)

theorem read_lead (m : Method) : Lexer.start.read m.lead.toList = ⟨.bare, none, m.tokens⟩ := by
  cases m <;> decide

theorem mapM_plain?_tokens (m : Method) : m.tokens.mapM Token.plain? = some m.words := by
  cases m <;> decide

/-- **No command escapes from its quotes**: for every method, command and password, the shell reads
the command line as the words of the method and one word more, in which it sees no character with a
meaning and which is the command; and nothing is left over. -/
theorem split_build (m : Method) (command : String) (password : Option String) :
    lex (m.build command password).command.toList =
        some (m.tokens ++ [.word (command.toList.map .literal)]) ∧
      split? (m.build command password).command = some (m.words ++ [command]) := by
  have hline : (m.build command password).command.toList =
      m.lead.toList ++ quoted command.toList := by
    rw [Method.build, quote, String.toList_append, String.toList_ofList]
  have hlex : lex (m.build command password).command.toList =
      some (m.tokens ++ [.word (command.toList.map .literal)]) := by
    rw [hline]
    exact lex_append_quoted (read_lead m) command.toList
  refine ⟨hlex, ?_⟩
  rw [split?, hlex, Option.bind_some, List.mapM_append, mapM_plain?_tokens, List.mapM_cons,
    plain?_literal, String.ofList_toList]
  rfl

end Elevation

end RemoteShell
