import RemoteShell.Text.Classes

/-!
# Quoted text

Text as it appears inside the descriptions of values: between double quotes, with a backslash
before a quote or a backslash, short names for the common control characters, and the code point
of every other character that does not show as itself.

## Main definitions

* `spelled`: how one character is written.
* `quoted`: a text between quotes.
* `described`, `optional`, `listed`, `gathered`: records, optional values, lists and sets of
  descriptions.
-/

namespace RemoteShell.Text

/-- The code point of a character in braces behind a backslash and a `u`. -/
def codePoint (c : Char) : List Char :=
  ['\\', 'u', '\x7b'] ++ Nat.toDigits 16 c.toNat ++ ['\x7d']

/-- How a character is written in quoted text. -/
def spelled (c : Char) : List Char :=
  match c with
  | '"' => ['\\', '"']
  | '\\' => ['\\', '\\']
  | '\n' => ['\\', 'n']
  | '\r' => ['\\', 'r']
  | '\t' => ['\\', 't']
  | '\x00' => ['\\', '0']
  | c => if unseen.holds c then codePoint c else [c]

/-- A text between double quotes. -/
def quoted (s : String) : String :=
  String.ofList (['"'] ++ s.toList.flatMap spelled ++ ['"'])

/-- A record: its name, then its fields with their descriptions. -/
def described (name : String) (fields : List (String × String)) : String :=
  name ++ " \x7b " ++ ", ".intercalate (fields.map fun (f, v) => f ++ ": " ++ v) ++ " \x7d"

/-- An optional value by the description of what it holds. -/
def optional (describe : α → String) : Option α → String
  | none => "None"
  | some a => "Some(" ++ describe a ++ ")"

/-- A list of descriptions. -/
def listed (ds : List String) : String := "[" ++ ", ".intercalate ds ++ "]"

/-- A set of descriptions. -/
def gathered (ds : List String) : String := "\x7b" ++ ", ".intercalate ds ++ "\x7d"

/-- What stands in a description in place of a secret. -/
def redacted : String := "<redacted>"

end RemoteShell.Text
