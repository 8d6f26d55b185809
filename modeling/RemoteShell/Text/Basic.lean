/-!
# Text

Operations on text, stated on lists of characters: blanks, trimming, searching, splitting, lines
and unsigned numbers.  The `String` forms at the end of each section are the ones the rest of the
library calls.

## Main definitions

* `isBlank`, `trim`: blanks are the characters with the Unicode property White_Space.
* `occurs`: does one text occur in another?
* `splitLast?`: the parts before and after the last occurrence of a character.
* `lines`, `wordsBy`: lines, and the non-empty pieces between separators.
* `parseNat?`: unsigned decimal numbers with an optional plus sign and an upper bound.
-/

namespace RemoteShell.Text

/-! ## Blanks -/

/-- The characters with the Unicode property White_Space. -/
def isBlank (c : Char) : Bool :=
  let n := c.toNat
  (9 ≤ n && n ≤ 13) || n == 0x20 || n == 0x85 || n == 0xA0 || n == 0x1680 ||
    (0x2000 ≤ n && n ≤ 0x200A) || n == 0x2028 || n == 0x2029 || n == 0x202F || n == 0x205F ||
    n == 0x3000

/-- Without the blanks in front. -/
def trimFront (s : List Char) : List Char := s.dropWhile isBlank

/-- Without the blanks at the end. -/
def trimBack (s : List Char) : List Char := (trimFront s.reverse).reverse

/-- Without the blanks at either end. -/
def trimmed (s : List Char) : List Char := trimBack (trimFront s)

/-- A text without the blanks at either end. -/
def trim (s : String) : String := String.ofList (trimmed s.toList)

/-- Does the text consist of blanks only? -/
def isBlankText (s : String) : Bool := (trimmed s.toList).isEmpty

/-! ## Searching and splitting -/

/-- Does the text `p` occur in a text? -/
def occurs (p : List Char) : List Char → Bool
  | [] => p.isEmpty
  | c :: rest => p.isPrefixOf (c :: rest) || occurs p rest

/-- Does the text `p` occur in `s`? -/
def contains (s p : String) : Bool := occurs p.toList s.toList

/-- Does one of the texts occur in `s`? -/
def containsAny (s : String) (ps : List String) : Bool := ps.any (contains s)

/-- Does `s` begin with `p`? -/
def startsWith (s p : String) : Bool := p.toList.isPrefixOf s.toList

/-- The parts before and after the first occurrence of a character. -/
def splitFirst? (c : Char) : List Char → Option (List Char × List Char)
  | [] => none
  | d :: rest =>
    if d = c then some ([], rest)
    else (splitFirst? c rest).map fun (a, b) => (d :: a, b)

/-- The parts before and after the last occurrence of a character. -/
def splitLast? (c : Char) : List Char → Option (List Char × List Char)
  | [] => none
  | d :: rest =>
    match splitLast? c rest with
    | some (a, b) => some (d :: a, b)
    | none => if d = c then some ([], rest) else none

/-- The pieces between separators; a text has one piece more than it has separators. -/
def pieces (sep : Char → Bool) : List Char → List (List Char)
  | [] => [[]]
  | c :: rest =>
    if sep c then [] :: pieces sep rest
    else match pieces sep rest with
      | [] => [[c]]
      | p :: ps => (c :: p) :: ps

/-- The non-empty pieces between separators. -/
def wordsBy (sep : Char → Bool) (s : List Char) : List (List Char) :=
  (pieces sep s).filter fun p => !p.isEmpty

/-- A line without the carriage return that ends it. -/
def withoutReturn (l : List Char) : List Char :=
  if l.getLast? = some '\r' then l.dropLast else l

/-- The lines of a text: the pieces between line feeds, the last one only when it is not empty.
A line that a line feed ends loses one carriage return before it. -/
def lines (s : List Char) : List (List Char) :=
  let ps := pieces (· == '\n') s
  let final := ps.getLast?.getD []
  ps.dropLast.map withoutReturn ++ if final.isEmpty then [] else [final]

/-- Texts joined by a separator. -/
def joined (sep : List Char) (ps : List (List Char)) : List Char := List.intercalate sep ps

/-! ## Unsigned numbers -/

/-- The value of a character as a decimal digit. -/
def digit? (c : Char) : Option Nat :=
  if '0' ≤ c ∧ c ≤ '9' then some (c.toNat - '0'.toNat) else none

/-- Read digits behind a number that is known so far. -/
def digitsFrom (n : Nat) : List Char → Option Nat
  | [] => some n
  | c :: rest => (digit? c).bind fun d => digitsFrom (10 * n + d) rest

/-- One or more decimal digits. -/
def digits? : List Char → Option Nat
  | [] => none
  | s => digitsFrom 0 s

/-- An optional plus sign and one or more digits, with a value of at most `bound`. -/
def natOf? (bound : Nat) (s : List Char) : Option Nat :=
  let body := match s with
    | '+' :: rest => rest
    | s => s
  (digits? body).filter (· ≤ bound)

/-- An unsigned number of at most `bound`: an optional plus sign, then digits, nothing else. -/
def parseNat? (bound : Nat) (s : String) : Option Nat := natOf? bound s.toList

end RemoteShell.Text
