import RemoteShell.Dialogue

/-!
# Dialogues with somebody who answers

A dialogue comes to an end when somebody answers its questions.  Whoever answers may remember
everything that was asked before, in this dialogue or earlier, and nothing else matters: a secret
that was stored is found later because it was stored, which is a question like any other.

## Main definitions

* `Dialogue.play`: the questions of a dialogue and its result, after other questions

## Main results

* `play_bind`: sequences
-/

namespace RemoteShell.Dialogue

variable {Q : Type} {A : Q → Type} {α β : Type}

/-- **A dialogue is played** against somebody who answers, after some questions: what it asks in
turn, and its result. -/
def play (answer : List Q → (q : Q) → A q) : Dialogue Q A α → List Q → List Q × α
  | .done a, _ => ([], a)
  | .ask q next, asked =>
    let (l, a) := (next (answer asked q)).play answer (asked ++ [q])
    (q :: l, a)

variable (answer : List Q → (q : Q) → A q) (asked : List Q)

@[simp] theorem play_done (a : α) :
    (Dialogue.done a : Dialogue Q A α).play answer asked = ([], a) := rfl

@[simp] theorem play_ask (q : Q) (next : A q → Dialogue Q A α) :
    (Dialogue.ask q next).play answer asked =
      (q :: ((next (answer asked q)).play answer (asked ++ [q])).1,
        ((next (answer asked q)).play answer (asked ++ [q])).2) := rfl

@[simp] theorem play_question (q : Q) :
    (Dialogue.question q : Dialogue Q A (A q)).play answer asked = ([q], answer asked q) := rfl

/-- **Sequences**: the second part is played after the questions of the first. -/
theorem play_bind (d : Dialogue Q A α) (f : α → Dialogue Q A β) :
    (d.bind f).play answer asked =
      ((d.play answer asked).1 ++
          ((f (d.play answer asked).2).play answer (asked ++ (d.play answer asked).1)).1,
        ((f (d.play answer asked).2).play answer (asked ++ (d.play answer asked).1)).2) := by
  induction d generalizing asked with
  | done a => simp
  | ask q next ih => simp [ih]

/-- A question before something else. -/
theorem play_question_bind (q : Q) (f : A q → Dialogue Q A β) :
    ((Dialogue.question q : Dialogue Q A (A q)).bind f).play answer asked =
      (q :: ((f (answer asked q)).play answer (asked ++ [q])).1,
        ((f (answer asked q)).play answer (asked ++ [q])).2) := rfl

end RemoteShell.Dialogue
