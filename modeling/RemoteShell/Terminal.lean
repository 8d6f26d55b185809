import RemoteShell.Text.Basic
import RemoteShell.Text.Case

/-!
# Terminal output

A terminal echoes the prompts of the program that runs on it and ends lines with a carriage
return and a line feed.  `cleaned?` takes both out again: carriage returns are dropped, a line that
asks for a password is dropped, and a line on which a password prompt is followed by output keeps
the output.

The prompt is recognised in the lower case of a line, cut at the byte where the first colon of the
line itself stands.  Lower-casing can change the number of bytes, and then the cut may fall
inside a character or behind the end; such a line cannot be cleaned.

## Main definitions

* `width`, `cutAt`: the bytes of a text, and its part before a byte offset.
* `cleanLine`: what is left of one line.
* `cleaned?`: what is left of an output.
-/

namespace RemoteShell.Terminal

open Text

/-- The number of bytes of a text. -/
def width : List Char → Nat
  | [] => 0
  | c :: s => c.utf8Size + width s

/-- The part of a text before a byte offset, if the offset falls between two characters or at an
end. -/
def cutAt : Nat → List Char → Option (List Char)
  | 0, _ => some []
  | _ + 1, [] => none
  | n + 1, c :: rest =>
    if c.utf8Size ≤ n + 1 then (cutAt (n + 1 - c.utf8Size) rest).map (c :: ·) else none

/-- What asks for a password contains this word. -/
def word : List Char := "password".toList

/-- What is left of a line. -/
inductive Cleaned where
  -- Nothing: the line is a password prompt.
  | dropped
  -- The text of the line that is output.
  | kept (line : List Char)
  -- The line cannot be cleaned, because a cut falls inside a character.
  | stuck
  deriving DecidableEq, Repr

/-- What is left of a line without carriage returns. -/
def cleanLine (line : List Char) : Cleaned :=
  let body := trimmed line
  let lower := lowered body
  -- The whole line is a prompt.
  if occurs word lower && body.getLast? == some ':' then .dropped
  else match splitFirst? ':' body with
    | none => .kept line
    | some (before, after) =>
      -- The offset belongs to the line, but the cut is made in its lower case.
      match cutAt (width before) lower with
      | none => .stuck
      | some head => if occurs word head then .kept (trimFront after) else .kept line

/-- What is left of a list of lines. -/
def cleanLines : List (List Char) → Option (List (List Char))
  | [] => some []
  | l :: ls =>
    match cleanLine l with
    | .stuck => none
    | .dropped => cleanLines ls
    | .kept l' => (cleanLines ls).map (l' :: ·)

/-- What is left of a terminal's output, or nothing when a line cannot be cleaned. -/
def cleanedChars? (s : List Char) : Option (List Char) :=
  (cleanLines (lines (s.filter (· != '\r')))).map (joined ['\n'])

/-- What is left of a terminal's output, or nothing when a line cannot be cleaned. -/
def cleaned? (s : String) : Option String := (cleanedChars? s.toList).map String.ofList

end RemoteShell.Terminal
