import RemoteShell.Dialogue

/-!
# Questions of dialogues

What a dialogue may ask, proved along its text.  A dialogue is put together from others by going on
with their results, so what it asks depends on the results that its parts can come to: a property
of the questions is proved together with one of the results.

## Main definitions

* `Dialogue.Within`: all questions have one property, and all results another

## Main results

* `Dialogue.Within.bind`: sequences
* `Dialogue.all_iff_within`: what is asked, whatever the results
-/

namespace RemoteShell.Dialogue

variable {Q : Type} {A : Q → Type} {α β : Type} {p p' : Q → Prop} {post post' : α → Prop}

/-- **A dialogue stays within a property** of its questions, and its results have another one,
whatever the answers. -/
def Within (p : Q → Prop) (post : α → Prop) : Dialogue Q A α → Prop
  | .done a => post a
  | .ask q next => p q ∧ ∀ a, Within p post (next a)

theorem Within.question {q : Q} (hq : p q) :
    (Dialogue.question q : Dialogue Q A (A q)).Within p fun _ => True :=
  ⟨hq, fun _ => trivial⟩

/-- **Sequences**: the second part is asked for its questions only at results of the first. -/
theorem Within.bind {d : Dialogue Q A α} {f : α → Dialogue Q A β} {last : β → Prop}
    (hd : d.Within p post) (hf : ∀ a, post a → (f a).Within p last) : (d.bind f).Within p last := by
  induction d with
  | done a => exact hf a hd
  | ask q next ih => exact ⟨hd.1, fun a => ih a (hd.2 a)⟩

theorem Within.mono {d : Dialogue Q A α} (hd : d.Within p post) (hp : ∀ q, p q → p' q)
    (hpost : ∀ a, post a → post' a) : d.Within p' post' := by
  induction d with
  | done a => exact hpost a hd
  | ask q next ih => exact ⟨hp q hd.1, fun a => ih a (hd.2 a)⟩

/-- What a dialogue asks, whatever it comes to. -/
theorem all_iff_within {d : Dialogue Q A α} : d.All p ↔ d.Within p fun _ => True := by
  induction d with
  | done a => exact Iff.rfl
  | ask q next ih => exact and_congr_right fun _ => forall_congr' ih

theorem Within.all {d : Dialogue Q A α} (hd : d.Within p post) : d.All p :=
  all_iff_within.mpr (hd.mono (fun _ hq => hq) fun _ _ => trivial)

theorem All.mono {d : Dialogue Q A α} (hd : d.All p) (hp : ∀ q, p q → p' q) : d.All p' :=
  all_iff_within.mpr ((all_iff_within.mp hd).mono hp fun _ h => h)

end RemoteShell.Dialogue
