import RemoteShell.Elevation.Engine

/-!
# Traffic on an elevation engine

An engine with the calls that are under way on it.  Calls come in any order and any number, for one
login or for several; while a call waits every other may go on, its wait may end with any answer
that fits it, and its caller may give it up.  At any moment the profiles of a host may be
forgotten, also behind the back of calls that are busy with them.

What calls ask, hear and end with is noted, together with what they leave in the profile of their
login.  The notes on one cell are the history of one profile: when the profiles of a host are
forgotten, the next call on a login begins a new one.

## Main definitions

* `Deed`, `Note`: what is noted of a call
* `Traffic`, `Traffic.step`, `Traffic.run`: the engine with its calls, one event, and many
* `Traffic.record`: the history of one profile
* `Since`: something holds of a history since some note
-/

namespace RemoteShell.Elevation

/-! ## Notes -/

/-- What is noted of a call. -/
inductive Deed where
  -- A question for others, and its answer.
  | asks (q : Query)
  | hears (q : Query) (a : q.Answer)
  -- The profile, as it stands whenever the call is about to ask or to end.
  | leaves (v : Option Profile)
  | ends (r : Climb.Result)

/-- A deed, and the call that does it: its number, and what it was begun with. -/
structure Note where
  caller : CallId
  key : Login
  command : String
  timeout : Duration
  deed : Deed

/-- **Since some note**, the latest first, something holds of all notes. -/
def Since (holds began : Note → Prop) (h : List Note) : Prop :=
  ∃ later x earlier, h = later ++ x :: earlier ∧ began x ∧ ∀ y ∈ later, holds y

section Since

variable {holds began : Note → Prop} {h : List Note} {x : Note}

theorem Since.begin (hx : began x) : Since holds began (x :: h) :=
  ⟨[], x, h, rfl, hx, List.forall_mem_nil _⟩

theorem Since.cons (hs : Since holds began h) (hx : holds x) : Since holds began (x :: h) := by
  obtain ⟨later, y, earlier, rfl, hy, hlater⟩ := hs
  refine ⟨x :: later, y, earlier, rfl, hy, ?_⟩
  intro z hz
  rcases List.mem_cons.mp hz with rfl | hz
  · exact hx
  · exact hlater z hz

end Since

namespace Climb

/-- A deed of a call. -/
def note (c : Climb) (d : Deed) : Note := ⟨c.caller, c.key, c.command, c.timeout, d⟩

/-- A call as it comes to an engine and asks for the lock of its login. -/
def arrive (caller : CallId) (key : Login) (command : String) (timeout : Duration)
    (on : Option ConnId) (e : Engine) : Climb :=
  ⟨caller, key, command, timeout, on, (e.profiles.openCell key none).1, .queued⟩

/-- May the wait of a call end with an answer?  The turn of a call comes when it has got the
lock. -/
def mayHear (e : Engine) (c : Climb) (a : Answer) : Bool :=
  match c.phase, a with
  | .queued, .admitted => c.admitted e
  | .talking (.ask q _), a => (q.take? a).isSome
  | _, _ => false

/-- What a call is told by an answer. -/
def told (c : Climb) (a : Answer) : List Deed :=
  match c.phase with
  | .talking (.ask q _) => ((q.take? a).map (Deed.hears q)).toList
  | _ => []

/-- What a call comes to that has gone on: it asks a question or ends.  A call that has to queue
does nothing. -/
def comesTo : Progress Climb Result → Option Deed
  | .waits c =>
    match c.phase with
    | .talking (.ask q _) => some (.asks q)
    | _ => none
  | .ends r => some (.ends r)

end Climb

/-! ## Traffic -/

/-- An engine with the calls that are under way on it. -/
structure Traffic where
  engine : Engine
  calls : Assoc CallId Climb
  -- The notes, the latest first, each with the cell of its profile.
  journal : List (CellId × Note)

/-- What happens on an engine. -/
inductive Event where
  | call (id : CallId) (key : Login) (command : String) (timeout : Duration)
    (on : Option ConnId)
  | answer (id : CallId) (a : Answer)
  | abandon (id : CallId)
  -- The profiles of a host are forgotten, or all of them.
  | clear (host : Option String)

/-- The notes on a cell. -/
def notesOn (n : CellId) (journal : List (CellId × Note)) : List Note :=
  (journal.filter fun x => x.1 = n).map Prod.snd

/-- A call has been told something and has gone on. -/
def notesOf (c : Climb) (told : List Deed) (x : Engine × Progress Climb Climb.Result) :
    List Note :=
  let did :=
    match Climb.comesTo x.2 with
    | none => told
    | some d => d :: .leaves (x.1.profiles.value? c.cell).join :: told
  did.map c.note

namespace Traffic

/-- An engine that knows nothing and has no calls. -/
def idle (s : ElevationSettings) : Traffic := ⟨.empty s, [], []⟩

/-- **The history of a profile**, the latest first. -/
def record (s : Traffic) (n : CellId) : List Note := notesOn n s.journal

/-- A call has been told something, and goes on up to its next wait or ends. -/
def after (s : Traffic) (c : Climb) (told : List Deed)
    (x : Engine × Progress Climb Climb.Result) : Traffic where
  engine := x.1
  calls :=
    match x.2 with
    | .waits d => s.calls.put c.caller d
    | .ends _ => s.calls.erase c.caller
  journal := (notesOf c told x).map (fun y => (c.cell, y)) ++ s.journal

/-- **One event.**  An event that cannot happen makes nothing. -/
def step (s : Traffic) : Event → Option Traffic
  | .call id key command timeout on =>
    if s.calls.has id then none
    else
      some (s.after (.arrive id key command timeout on s.engine) []
        (Climb.start id key command timeout on s.engine))
  | .answer id a =>
    (s.calls.get? id).bind fun c =>
      if c.mayHear s.engine a then some (s.after c (c.told a) (c.resume a s.engine)) else none
  | .abandon id =>
    (s.calls.get? id).map fun c =>
      { s with engine := c.abandon s.engine, calls := s.calls.erase id }
  | .clear host => some { s with engine := (s.engine.clear host).2 }

/-- Events, one after another. -/
def run (s : Traffic) : List Event → Option Traffic
  | [] => some s
  | e :: es => (s.step e).bind fun t => t.run es

end Traffic

end RemoteShell.Elevation
