/-!
# JSON

Documents and their compact text.

## Main definitions

* `Json`: a document; the members of an object keep their order.
* `Json.field?`: a member of an object.
* `Json.compact`: the text without blanks.
-/

namespace RemoteShell

/-- A document. -/
inductive Json where
  | null
  | bool (b : Bool)
  -- The number `mantissa / 10 ^ places`; a whole number has no places.
  | num (mantissa : Int) (places : Nat)
  | str (s : String)
  | arr (items : List Json)
  | obj (members : List (String × Json))
  deriving Repr, Inhabited

namespace Json

/-- A whole number. -/
def int (n : Int) : Json := .num n 0

/-- A whole number. -/
def nat (n : Nat) : Json := .num n 0

/-- A list of texts. -/
def strs (l : List String) : Json := .arr (l.map .str)

/-- A value that is left out of its object when it is absent. -/
def member? (name : String) (v : Option Json) : List (String × Json) :=
  match v with
  | none => []
  | some j => [(name, j)]

/-- The value, or `null` when it is absent. -/
def orNull : Option Json → Json
  | none => .null
  | some j => j

/-- A member of a list of members. -/
def lookup (ms : List (String × Json)) (name : String) : Option Json :=
  (ms.find? fun m => m.1 = name).map (·.2)

/-- A member of an object; other documents have none. -/
def field? (j : Json) (name : String) : Option Json :=
  match j with
  | .obj ms => lookup ms name
  | _ => none

/-! ## Text -/

/-- The four hexadecimal digits of a code point. -/
def hex4 (n : Nat) : List Char :=
  [n / 4096 % 16, n / 256 % 16, n / 16 % 16, n % 16].map Nat.digitChar

/-- How a character is written between the quotes of a text. -/
def escaped (c : Char) : List Char :=
  match c with
  | '"' => ['\\', '"']
  | '\\' => ['\\', '\\']
  | '\n' => ['\\', 'n']
  | '\r' => ['\\', 'r']
  | '\t' => ['\\', 't']
  | '\x08' => ['\\', 'b']
  | '\x0c' => ['\\', 'f']
  | c => if c.toNat < 32 then ['\\', 'u'] ++ hex4 c.toNat else [c]

/-- A text between quotes. -/
def quoted (s : String) : String :=
  String.ofList (['"'] ++ s.toList.flatMap escaped ++ ['"'])

/-- A number: its sign, its whole part and its places. -/
def numText (mantissa : Int) (places : Nat) : String :=
  let n := mantissa.natAbs
  let sign := if mantissa < 0 then "-" else ""
  if places = 0 then sign ++ toString n
  else
    let whole := n / Nat.pow 10 places
    let digits := toString (n % Nat.pow 10 places)
    sign ++ toString whole ++ "." ++
      String.ofList (List.replicate (places - digits.length) '0') ++ digits

mutual

/-- The text without blanks, members in their order. -/
def compact : Json → String
  | .null => "null"
  | .bool b => if b then "true" else "false"
  | .num m p => numText m p
  | .str s => quoted s
  | .arr items => "[" ++ ",".intercalate (compactItems items) ++ "]"
  | .obj members => "\x7b" ++ ",".intercalate (compactMembers members) ++ "\x7d"

/-- The texts of the items of an array. -/
def compactItems : List Json → List String
  | [] => []
  | j :: js => compact j :: compactItems js

/-- The texts of the members of an object. -/
def compactMembers : List (String × Json) → List String
  | [] => []
  | (k, j) :: ms => (quoted k ++ ":" ++ compact j) :: compactMembers ms

end

end Json

end RemoteShell
