/-!
# Dialogues

A call that needs others to go on, as the tree of its questions: it is done, or it asks a question
and goes on with the answer.  What a call may ask is a type `Q`, and `A q` are the answers to the
question `q`.  Nothing is said about who answers, when, or whether the caller is still there for the
answer; a call that is dropped has been left at one of its questions.

## Main definitions

* `Dialogue` and its monad.
* `Dialogue.Path`: a way through a dialogue, with the questions and answers on it.
* `Dialogue.All`: a property of every question that may come.
-/

namespace RemoteShell

/-- A call as the tree of its questions. -/
inductive Dialogue (Q : Type) (A : Q → Type) (α : Type) where
  | done (a : α)
  | ask (q : Q) (next : A q → Dialogue Q A α)

namespace Dialogue

variable {Q : Type} {A : Q → Type} {α β γ : Type}

/-- Go on with the result of a dialogue. -/
def bind : Dialogue Q A α → (α → Dialogue Q A β) → Dialogue Q A β
  | .done a, f => f a
  | .ask q next, f => .ask q fun a => bind (next a) f

instance : Monad (Dialogue Q A) where
  pure := .done
  bind := bind

/-- Ask one question. -/
def question (q : Q) : Dialogue Q A (A q) := .ask q .done

/-- **A way through a dialogue**: the questions with their answers, up to the result. -/
inductive Path : Dialogue Q A α → List ((q : Q) × A q) → α → Prop where
  | done (a : α) : Path (.done a) [] a
  | ask {q : Q} {next : A q → Dialogue Q A α} {a : A q} {l : List ((q : Q) × A q)} {r : α} :
    Path (next a) l r → Path (.ask q next) (⟨q, a⟩ :: l) r

/-- **A property of every question** that a dialogue may ask, whatever the answers. -/
def All (p : Q → Prop) : Dialogue Q A α → Prop
  | .done _ => True
  | .ask q next => p q ∧ ∀ a, All p (next a)

@[simp] theorem done_bind (a : α) (f : α → Dialogue Q A β) : (Dialogue.done a).bind f = f a := rfl

@[simp] theorem ask_bind (q : Q) (next : A q → Dialogue Q A α) (f : α → Dialogue Q A β) :
    (Dialogue.ask q next).bind f = .ask q fun a => (next a).bind f := rfl

theorem bind_done (d : Dialogue Q A α) : d.bind .done = d := by
  induction d with
  | done a => rfl
  | ask q next ih => simp [ih]

theorem bind_assoc (d : Dialogue Q A α) (f : α → Dialogue Q A β) (g : β → Dialogue Q A γ) :
    (d.bind f).bind g = d.bind fun a => (f a).bind g := by
  induction d with
  | done a => rfl
  | ask q next ih => simp [ih]

end Dialogue

end RemoteShell
