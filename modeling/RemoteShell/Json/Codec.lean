import RemoteShell.Counts
import RemoteShell.Json

/-!
# Writing values as JSON and reading them back

A record is written as an object with its fields in order.  It is read from an object, whose
unknown members do not count and which has no field twice, or from an array of its fields in order.
A choice between names is written as its name; it is read from the name, or from an object whose
only member has that name and holds `null`.

## Main definitions

* `Codec`: how a type is written and read.
* `Slot`, `Slot.among`, `Record.read`: the fields of a record in either of its two forms.
* `Slot.required`, `Slot.optional`, `Slot.orElse`: the three kinds of field.
* `readName`: a choice between names.
-/

namespace RemoteShell

/-- How a type is written as JSON and read back. -/
class Codec (α : Type) where
  write : α → Json
  read : Json → Option α

export Codec (write)

namespace Json

/-! ## Texts, truth values and numbers -/

/-- Read a text. -/
def asText : Json → Option String
  | .str s => some s
  | _ => none

/-- Read a truth value. -/
def asBool : Json → Option Bool
  | .bool b => some b
  | _ => none

/-- Read a whole number. -/
def asInt : Json → Option Int
  | .num n 0 => some n
  | _ => none

/-- Read a whole number from zero to a bound. -/
def asNat (bound : Nat) (j : Json) : Option Nat :=
  j.asInt.bind fun n => if 0 ≤ n ∧ n ≤ bound then some n.toNat else none

end Json

instance : Codec String := ⟨.str, Json.asText⟩

instance : Codec Bool := ⟨.bool, Json.asBool⟩

instance : Codec UInt16 :=
  ⟨fun n => .nat n.toNat, fun j => (j.asNat (UInt16.size - 1)).map UInt16.ofNat⟩

instance : Codec UInt32 :=
  ⟨fun n => .nat n.toNat, fun j => (j.asNat (UInt32.size - 1)).map UInt32.ofNat⟩

instance : Codec UInt64 :=
  ⟨fun n => .nat n.toNat, fun j => (j.asNat (UInt64.size - 1)).map UInt64.ofNat⟩

instance : Codec Int32 where
  write n := .int n.toInt
  read j := j.asInt.bind fun n =>
    if Int32.minValue.toInt ≤ n ∧ n ≤ Int32.maxValue.toInt then some (Int32.ofInt n) else none

/-! ## Lists and counts -/

/-- Read every item of a list, or nothing. -/
def readItems (read : Json → Option α) : List Json → Option (List α)
  | [] => some []
  | j :: js => (read j).bind fun a => (readItems read js).map (a :: ·)

instance [Codec α] : Codec (List α) where
  write l := .arr (l.map Codec.write)
  read
    | .arr items => readItems Codec.read items
    | _ => none

/-- Read every member of an object as a count, or nothing. -/
def readCounts : List (String × Json) → Option (List (String × UInt64))
  | [] => some []
  | (k, j) :: ms => (Codec.read j).bind fun n => (readCounts ms).map ((k, n) :: ·)

instance : Codec Counts where
  write c := .obj (c.entries.map fun e => (e.1, write e.2))
  read
    | .obj ms => (readCounts ms).map Counts.ofList
    | _ => none

/-! ## Choices between names -/

/-- Read a choice between names. -/
def readName (ofName? : String → Option α) : Json → Option α
  | .str s => ofName? s
  | .obj [(s, .null)] => ofName? s
  | _ => none

/-! ## Records -/

/-- What stands at the place of a field. -/
inductive Slot where
  | given (j : Json)
  -- Nothing, in a record written as an object.
  | absent
  -- More than one member, in a record written as an object.
  | repeated
  -- Nothing, because the record is written as an array that ends before the field.
  | beyond

/-- The fields of a record by their place and their name. -/
abbrev Slots := Nat → String → Slot

/-- What stands among the members of an object for a field. -/
def Slot.among (ms : List (String × Json)) (name : String) : Slot :=
  match ms.filter fun m => m.1 = name with
  | [] => .absent
  | [m] => .given m.2
  | _ => .repeated

/-- Read a record of so many fields from an object or from an array. -/
def Record.read (size : Nat) (k : Slots → Option α) : Json → Option α
  | .obj ms => k fun _ name => .among ms name
  | .arr items =>
    if items.length ≤ size then
      k fun place _ =>
        match items[place]? with
        | some j => .given j
        | none => .beyond
    else none
  | _ => none

namespace Slot

/-- A field that must be there. -/
def required [Codec α] : Slot → Option α
  | .given j => Codec.read j
  | _ => none

/-- Read a value that may be `null`. -/
def readOptional [Codec α] : Json → Option (Option α)
  | .null => some none
  | j => (Codec.read j).map some

/-- A field that an object may leave out. -/
def optional [Codec α] : Slot → Option (Option α)
  | .given j => readOptional j
  | .absent => some none
  | .repeated | .beyond => none

/-- A field that an object may leave out and an array may end before. -/
def skippable [Codec α] : Slot → Option (Option α)
  | .given j => readOptional j
  | .repeated => none
  | .absent | .beyond => some none

/-- A field that has a standard value. -/
def orElse [Codec α] (standard : α) : Slot → Option α
  | .given j => Codec.read j
  | .repeated => none
  | .absent | .beyond => some standard

end Slot

end RemoteShell
