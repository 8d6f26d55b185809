import RemoteShell.Text.Classes

/-!
# Lower case

The full lower-casing of Unicode: one character may become two, and a capital sigma becomes the
final form where it ends a word.

## Main definitions

* `lowerChar`: the lower case of one character out of context.
* `endsWord`: the condition for the final form of sigma.
* `lowered`, `lowercase`: the lower case of a text.
-/

namespace RemoteShell.Text

/-- The lower case of a character out of context: for a dotted capital I two characters, else
one. -/
def lowerChar (c : Char) : List Char :=
  if c.toNat < 128 then [c.toLower]
  else if c.toNat = 0x130 then ['i', Char.ofNat 0x307]
  else match caseRuns.findSome? (·.lower? c.toNat) with
    | some n => [Char.ofNat n]
    | none => [c]

/-- Is the nearest character that is not passed over a letter with a case? -/
def meetsCased (s : List Char) : Bool :=
  match s.dropWhile caseIgnorable.holds with
  | [] => false
  | c :: _ => cased.holds c

/-- Does a word end between the characters before (nearest first) and the rest? -/
def endsWord (before rest : List Char) : Bool := meetsCased before && !meetsCased rest

/-- The lower case of a text that stands behind the characters `before` (nearest first). -/
def loweredAfter (before : List Char) : List Char → List Char
  | [] => []
  | c :: rest =>
    (if c.toNat = 0x3A3 then [Char.ofNat (if endsWord before rest then 0x3C2 else 0x3C3)]
      else lowerChar c) ++ loweredAfter (c :: before) rest

/-- The lower case of a text. -/
def lowered (s : List Char) : List Char := loweredAfter [] s

/-- The lower case of a text. -/
def lowercase (s : String) : String := String.ofList (lowered s.toList)

end RemoteShell.Text
