import RemoteShell.Proofs.Cells.Values
import RemoteShell.Proofs.Elevation.Traffic

/-!
# What can be seen of elevation

Everything about elevation that others get to see, but for the passwords themselves: the requests
without what is written to their input, the questions to the operator and to the vault without the
secrets that are stored, how calls end, and profiles as they are summarized and described.

A scene is an engine in company: a runner with a reply to every request, an operator with an answer
to every prompt, and a vault.  What happens is up to cues, which name the call that goes on, but not
what it is told.

## Main definitions

* `Request.redacted`, `Wrapped.redacted`, `Errand.redacted`, `Profile.redacted`: passwords taken out
* `Sight`, `Query.sight`, `Deed.sight?`: what can be seen
* `Company`, `Company.answer`: the runner, the operator and the vault
* `Scene`, `Scene.step`, `Scene.run`, `Scene.shows`: an engine in company, and what it shows

## Main results

* `Request.description_redacted`, `Wrapped.description_redacted`, `Profile.description_redacted`:
  descriptions depend on nothing that is taken out
* `Query.sight_redacted`: nor does what can be seen of an errand
-/

namespace RemoteShell

/-- A request without what is written to its input. -/
def Request.redacted (r : Request) : Request :=
  { r with stdin := r.stdin.map fun _ => Text.redacted }

theorem Request.description_redacted (r : Request) : r.redacted.description = r.description := by
  obtain ⟨command, timeout, stdin, pty⟩ := r
  cases stdin <;> rfl

namespace Elevation

/-! ## Passwords taken out -/

/-- A wrapped command without what is written to its input. -/
def Wrapped.redacted (w : Wrapped) : Wrapped :=
  { w with stdin := w.stdin.map fun _ => Text.redacted }

theorem Wrapped.description_redacted (w : Wrapped) : w.redacted.description = w.description := by
  obtain ⟨command, stdin, pty⟩ := w
  cases stdin <;> rfl

/-- An errand without its password. -/
def Errand.redacted : Errand → Errand
  | .check m password limit => .check m (password.map fun _ => Text.redacted) limit
  | .elevated m password command timeout =>
    .elevated m (password.map fun _ => Text.redacted) command timeout
  | e => e

/-- The command of an errand as a method wraps it. -/
def Errand.wrapped? : Errand → Option Wrapped
  | .check m password _ => some (m.build "whoami" password)
  | .elevated m password command _ => some (m.build command password)
  | _ => none

/-- A method writes a password to the input, or nothing; the rest does not depend on it. -/
theorem Method.build_redacted (m : Method) (command : String) (password : Option String) :
    (m.build command (password.map fun _ => Text.redacted)).redacted =
      (m.build command password).redacted := by
  cases password <;> cases m <;> rfl

theorem Errand.request_redacted (e : Errand) :
    e.redacted.request.redacted = e.request.redacted := by
  cases e with
  | check m password limit => exact congrArg (·.request limit) (m.build_redacted "whoami" password)
  | elevated m password command timeout =>
    exact congrArg (·.request timeout) (m.build_redacted command password)
  | _ => rfl

theorem Errand.wrapped?_redacted (e : Errand) :
    e.redacted.wrapped?.map Wrapped.redacted = e.wrapped?.map Wrapped.redacted := by
  cases e with
  | check m password limit => exact congrArg some (m.build_redacted "whoami" password)
  | elevated m password command timeout =>
    exact congrArg some (m.build_redacted command password)
  | _ => rfl

/-- A profile with its passwords taken out; the methods that they belong to stay. -/
def Profile.redacted (p : Profile) : Profile :=
  { p with passwords := Assoc.mapValues (fun _ => Text.redacted) p.passwords }

theorem Profile.description_redacted (arrange : List Method → List Method) (p : Profile) :
    p.redacted.description arrange = p.description arrange := by
  rw [description, redacted, Assoc.length_mapValues]
  rfl

/-! ## What can be seen -/

/-- **What can be seen** of elevation. -/
inductive Sight where
  -- A request, and the descriptions of it and of the wrapped command in it.
  | sends (r : Request) (texts : List String)
  | prompts (message : String)
  | fetches (name : String)
  | stores (name : String)
  | erases (name : String)
  -- A profile as it is summarized and described.
  | leaves (v : Option (Summary × String))
  | ends (r : Climb.Result)

/-- What can be seen of a profile. -/
def Profile.sight (arrange : List Method → List Method) (v : Option Profile) : Sight :=
  .leaves (v.map fun p => (p.summary, p.description arrange))

theorem Profile.sight_redacted (arrange : List Method → List Method) (v : Option Profile) :
    sight arrange (v.map redacted) = sight arrange v := by
  cases v with
  | none => rfl
  | some p =>
    rw [sight, Option.map_map, Option.map_some, Function.comp, p.description_redacted]
    rfl

/-- Profiles that differ in passwords cannot be told apart. -/
theorem Profile.sight_eq_of_redacted (arrange : List Method → List Method)
    {v v' : Option Profile} (h : v.map redacted = v'.map redacted) :
    sight arrange v = sight arrange v' := by
  rw [← sight_redacted, h, sight_redacted]

/-- What can be seen of a question. -/
def Query.sight (arrange : List Method → List Method) : Query → Sight
  | .run e =>
    .sends e.request.redacted
      (e.request.description :: (e.wrapped?.map Wrapped.description).toList)
  | .prompt message => .prompts message
  | .fetch name => .fetches name
  | .store name _ => .stores name
  | .erase name => .erases name
  | .keep p => Profile.sight arrange (some p)

/-- What can be seen of a deed; what a call hears is not to be seen. -/
def Deed.sight? (arrange : List Method → List Method) : Deed → Option Sight
  | .asks q => some (q.sight arrange)
  | .hears .. => none
  | .leaves v => some (Profile.sight arrange v)
  | .ends r => some (.ends r)

/-- What can be seen of a note, and of whose call. -/
def Note.sight? (arrange : List Method → List Method) (x : Note) : Option (CallId × Sight) :=
  (x.deed.sight? arrange).map fun y => (x.caller, y)

/-- Nothing that can be seen of an errand depends on its password. -/
theorem Query.sight_redacted (arrange : List Method → List Method) (e : Errand) :
    (Query.run e.redacted).sight arrange = (Query.run e).sight arrange := by
  have hrequest : e.redacted.request.description = e.request.description := by
    rw [← Request.description_redacted, e.request_redacted, Request.description_redacted]
  have hwrapped : e.redacted.wrapped?.map Wrapped.description =
      e.wrapped?.map Wrapped.description := by
    have hsame := congrArg (Option.map Wrapped.description) e.wrapped?_redacted
    simpa only [Option.map_map, Function.comp_def, Wrapped.description_redacted] using hsame
  rw [sight, sight, e.request_redacted, hrequest, hwrapped]

/-! ## Company -/

/-- **Company**: who answers the questions of elevation. -/
structure Company where
  -- The replies to requests and the answers of the operator, and how many there have been.
  replies : Nat → Except Fault Reply
  replied : Nat
  words : Nat → Option String
  said : Nat
  vault : Vault

namespace Company

/-- The answer to a question, and the company after it. -/
def tell (c : Company) : (q : Query) → q.Answer × Company
  | .run _ => (c.replies c.replied, { c with replied := c.replied + 1 })
  | .prompt _ => (c.words c.said, { c with said := c.said + 1 })
  | .fetch name => (c.vault.get? name, c)
  | .store name secret => ((), { c with vault := c.vault.set name secret })
  | .erase name => ((), { c with vault := c.vault.delete name })
  | .keep _ => ((), c)

end Company

/-- An answer to a question, as the call that asks it hears it. -/
def Query.give : (q : Query) → q.Answer → RemoteShell.Answer
  | .run _, r => .replied r
  | .prompt _, s => .secret s
  | .fetch _, s => .secret s
  | .store .., _ => .done
  | .erase _, _ => .done
  | .keep _, _ => .done

@[simp] theorem Query.take?_give (q : Query) (a : q.Answer) : q.take? (q.give a) = some a := by
  cases q <;> rfl

/-- The question that a call waits for; one that waits for its turn has none. -/
def Climb.question? (c : Climb) : Option Query :=
  match c.phase with
  | .talking (.ask q _) => some q
  | _ => none

/-- The end of a wait: the answer of the company, or the turn of the call. -/
def Company.answer (c : Company) : Option Query → RemoteShell.Answer × Company
  | some q => (q.give (c.tell q).1, (c.tell q).2)
  | none => (.admitted, c)

/-! ## Scenes -/

/-- What happens on an engine in company. -/
inductive Cue where
  | call (id : CallId) (key : Login) (command : String) (timeout : Duration)
    (on : Option ConnId)
  -- A call goes on: its wait is over.
  | proceed (id : CallId)
  -- A call is given up; what it asked for last may still be carried out.
  | abandon (id : CallId) (carried : Bool)
  | clear (host : Option String)
  | look (key : Login)

/-- What those are told who clear an engine or look at a login. -/
inductive Survey where
  | forgotten (count : Nat)
  | known (s : Option Summary)
  deriving DecidableEq, Repr

/-- **A scene**: an engine in company. -/
structure Scene where
  traffic : Traffic
  company : Company
  -- The latest first.
  surveys : List Survey

namespace Scene

/-- A scene before anything has happened. -/
def begin (settings : ElevationSettings) (company : Company) : Scene :=
  ⟨.idle settings, company, []⟩

/-- **One cue.**  A cue that makes no sense makes nothing. -/
def step (s : Scene) : Cue → Option Scene
  | .call id key command timeout on =>
    (s.traffic.step (.call id key command timeout on)).map fun t => { s with traffic := t }
  | .proceed id =>
    (s.traffic.calls.get? id).bind fun c =>
      (s.traffic.step (.answer id (s.company.answer c.question?).1)).map fun t =>
        { s with traffic := t, company := (s.company.answer c.question?).2 }
  | .abandon id carried =>
    (s.traffic.calls.get? id).bind fun c =>
      (s.traffic.step (.abandon id)).map fun t =>
        { s with
          traffic := t
          company := if carried then (s.company.answer c.question?).2 else s.company }
  | .clear host =>
    (s.traffic.step (.clear host)).map fun t =>
      { s with traffic := t, surveys := .forgotten (s.traffic.engine.clear host).1 :: s.surveys }
  | .look key => some { s with surveys := .known (s.traffic.engine.summary? key) :: s.surveys }

/-- Cues, one after another. -/
def run (s : Scene) : List Cue → Option Scene
  | [] => some s
  | cue :: cues => (s.step cue).bind fun t => t.run cues

/-- **What a scene shows**: what could be seen of calls, and what was told to others, the latest
first. -/
def shows (arrange : List Method → List Method) (s : Scene) :
    List (CallId × Sight) × List Survey :=
  (s.traffic.journal.filterMap fun x => x.2.sight? arrange, s.surveys)

end Scene

end Elevation

end RemoteShell
