import RemoteShell.Dialogue

/-!
# Ways through dialogues

A dialogue is a finite tree, so whoever answers its questions, and however the answers hang on what
was said before, there is a way through it.  A way through a sequence is one through the first part
and one through the second.

## Main definitions

* `Dialogue.AnsweredBy`: the answers on a way are those of a strategy

## Main results

* `Dialogue.exists_path`: every strategy leads to an end
* `Dialogue.path_bind`: ways through sequences
-/

namespace RemoteShell.Dialogue

variable {Q : Type} {A : Q → Type} {α β : Type} {l : List ((q : Q) × A q)}

/-- **The answers of a strategy**: each of them may depend on all that was asked and answered
before. -/
def AnsweredBy (answer : List ((q : Q) × A q) → (q : Q) → A q) (before : List ((q : Q) × A q)) :
    List ((q : Q) × A q) → Prop
  | [] => True
  | ⟨q, a⟩ :: l => a = answer before q ∧ AnsweredBy answer (before ++ [⟨q, a⟩]) l

/-- **Every strategy leads to an end.** -/
theorem exists_path (d : Dialogue Q A α) (answer : List ((q : Q) × A q) → (q : Q) → A q)
    (before : List ((q : Q) × A q)) : ∃ l x, d.Path l x ∧ AnsweredBy answer before l := by
  induction d generalizing before with
  | done a => exact ⟨[], a, .done a, trivial⟩
  | ask q next ih =>
    obtain ⟨l, x, hpath, hl⟩ := ih (answer before q) (before ++ [⟨q, answer before q⟩])
    exact ⟨_, x, .ask hpath, rfl, hl⟩

theorem path_done {a x : α} (h : (Dialogue.done a : Dialogue Q A α).Path l x) :
    l = [] ∧ x = a := by
  cases h
  exact ⟨rfl, rfl⟩

theorem path_ask {q : Q} {next : A q → Dialogue Q A α} {x : α}
    (h : (Dialogue.ask q next).Path l x) : ∃ a l', l = ⟨q, a⟩ :: l' ∧ (next a).Path l' x := by
  cases h with
  | ask h => exact ⟨_, _, rfl, h⟩

/-- **A way through a sequence** is one through each of its parts. -/
theorem path_bind {d : Dialogue Q A α} {f : α → Dialogue Q A β} {x : β}
    (h : (d.bind f).Path l x) :
    ∃ first second y, l = first ++ second ∧ d.Path first y ∧ (f y).Path second x := by
  induction d generalizing l with
  | done a => exact ⟨[], l, a, rfl, .done a, h⟩
  | ask q next ih =>
    obtain ⟨a, l', rfl, hnext⟩ := path_ask h
    obtain ⟨first, second, y, rfl, hfirst, hsecond⟩ := ih a hnext
    exact ⟨⟨q, a⟩ :: first, second, y, rfl, .ask hfirst, hsecond⟩

end RemoteShell.Dialogue
