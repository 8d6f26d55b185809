import RemoteShell.Json
import RemoteShell.Request
import RemoteShell.Target

/-!
# Journal

What the world around a service was asked for, and when.

## Main definitions

* `Event`, `Event.json`: one thing that was asked for, and its form as a JSON array.
* `Journal`, `Journal.sorted`: what was asked for in its order, and in the order of time and text.
-/

namespace RemoteShell.Rehearsal

/-- One thing that was asked for. -/
inductive Event where
  | connect (key : Login) (limit : Duration)
  | exec (on : Option Nat) (q : Request)
  | probe (c : Nat)
  | close (c : Nat)
  | prompt (message : String)
  | choose (host user : String)
  | agent (socket : String)
  deriving DecidableEq, Repr

/-- A time limit in whole milliseconds, as far as 64 bits can hold them. -/
def limitJson (d : Duration) : Json := .nat (UInt64.ofNat d.millis).toNat

/-- An event as the items of an array: its name, then its details. -/
def Event.items : Event → List Json
  | .connect key limit => [.str "connect", .str key.text, limitJson limit]
  | .exec on q =>
    [.str "exec", .orNull (on.map .nat), .str q.command, .orNull (q.stdin.map .str), .bool q.pty,
      limitJson q.timeout]
  | .probe c => [.str "probe", .nat c]
  | .close c => [.str "close", .nat c]
  | .prompt message => [.str "prompt", .str message]
  | .choose host user => [.str "ask_method", .str host, .str user]
  | .agent socket => [.str "agent", .str socket]

/-- The text of an event. -/
def Event.text (e : Event) : String := (Json.arr e.items).compact

/-- An event and its time. -/
structure Entry where
  millis : Nat
  event : Event
  deriving DecidableEq, Repr

/-- An entry as a JSON array: the time, then the event. -/
def Entry.json (e : Entry) : Json := .arr (.nat e.millis :: e.event.items)

/-- What was asked for, in its order. -/
abbrev Journal := List Entry

/-- Entries with the texts of their events, which are compared when the times are equal. -/
def Entry.notAfter (a b : Entry × String) : Bool :=
  if a.1.millis = b.1.millis then !(b.2 < a.2) else a.1.millis < b.1.millis

/-- A journal in the order of time and, at one time, of the text of the events. -/
def Journal.sorted (j : Journal) : Journal :=
  ((j.map fun e => (e, e.event.text)).mergeSort Entry.notAfter).map (·.1)

end RemoteShell.Rehearsal
