import RemoteShell.Rehearsal.Stage

/-!
# Sessions

A whole rehearsal: its steps are taken one after another, and each gives a report.

## Main definitions

* `Session.begin`: a stage for given settings and a given world.
* `Report`, `Session.run`: the reports of the steps, and the stage in the end.
-/

namespace RemoteShell.Rehearsal

/-- What a step answered, when, and what was asked for meanwhile. -/
structure Report where
  result : Result
  millis : Nat
  journal : Journal

/-- Is the order in which a step asks for things of no account?  Then its journal is sorted. -/
def Step.unordered : Step → Bool
  | .par _ => true
  | .sweeper _ => false
  | .act (.sleep _) | .act .shutdown => true
  | .act (.disconnect ..) | .act (.disconnectAll _) | .act (.cleanup _) => true
  | .act (.tool name _) => name != Tool.execute.name
  | .act _ => false

namespace Session

/-- A stage on which nothing has happened, for given settings and a given world. -/
def begin (env : Environment) (s : Settings) (w : World) : Stage :=
  .empty
    { env := env
      settings := s
      registry := .empty s.circuit
      apart := .empty s
      together := .empty s
      names := []
      profile := .ofUser ""
      world := w }

/-- Take the journal of a stage. -/
def takeJournal (t : Stage) : Journal × Stage :=
  (t.bench.world.journal,
    { t with bench := { t.bench with world := { t.bench.world with journal := [] } } })

/-- Take a step and report on it, unless it crashes. -/
def report? (t : Stage) (s : Step) : Option (Report × Stage) :=
  match t.perform s with
  | (some (.answered r), t) =>
    let (journal, t) := takeJournal t
    some (⟨r, t.now.millis, if s.unordered then journal.sorted else journal⟩, t)
  | _ => none

/-- Take steps one after another, and report on each; nothing is reported if one crashes. -/
def run : List Step → Stage → Option (List Report × Stage)
  | [], t => some ([], t)
  | s :: rest, t =>
    match report? t s with
    | none => none
    | some (r, t) => (run rest t).map fun (rs, t) => (r :: rs, t)

end Session

end RemoteShell.Rehearsal
