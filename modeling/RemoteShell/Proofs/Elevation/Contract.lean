import RemoteShell.Proofs.Elevation.Traffic

/-!
# Contracts of dialogues

What a dialogue of elevation does to a profile and to its history, said once for all orders of
calls.  An invariant ties a profile to the notes on it.  A dialogue keeps the invariant if it holds
whenever the dialogue waits for an answer, whatever the answers are, so that the caller may give the
call up there, and if a condition holds in the end.

Contracts follow the dialogue: that of a sequence is that of its first part with the contract of the
second part as the condition in the end.

## Main definitions

* `Talk.Keeps`: a dialogue keeps an invariant
* `Talk.Fulfils`: a whole call keeps an invariant

## Main results

* `Talk.keeps_bind`, `Talk.Keeps.mono`: sequences, and weaker conditions in the end
* `Talk.keeps_ask`: a question for others
-/

namespace RemoteShell.Elevation

/-- How the call ends for its caller. -/
def Ending.result : Ending → Climb.Result
  | .finished r => .finished r
  | .undetected f => .finished (.error f)
  | .crashed => .crashed

/-- Does a question go to others?  A profile is kept at once. -/
def Query.Outward : Query → Prop
  | .keep _ => False
  | _ => True

theorem Query.outward_or_keep (q : Query) : q.Outward ∨ ∃ p, q = .keep p := by
  cases q with
  | keep p => exact .inr ⟨p, rfl⟩
  | _ => exact .inl trivial

namespace Talk

variable {α β : Type} {inv : Option Profile → List Note → Prop} {mark : Deed → Note}

/-- **A dialogue keeps an invariant** of a profile and its history: it holds at every wait, and a
condition holds in the end. -/
def Keeps (inv : Option Profile → List Note → Prop) (mark : Deed → Note)
    (post : α → Option Profile → List Note → Prop) :
    Talk α → Option Profile → List Note → Prop
  | .done x, v, h => post x v h
  | .ask (.keep p) next, _, h => Keeps inv mark post (next ()) (some p) h
  | .ask q next, v, h =>
    inv v (mark (.asks q) :: mark (.leaves v) :: h) ∧
      ∀ a, Keeps inv mark post (next a) v
        (mark (.hears q a) :: mark (.asks q) :: mark (.leaves v) :: h)

/-- **A whole call keeps an invariant**, to its end. -/
def Fulfils (inv : Option Profile → List Note → Prop) (mark : Deed → Note) :
    Talk Ending → Option Profile → List Note → Prop :=
  Keeps inv mark fun x v h => inv v (mark (.ends x.result) :: mark (.leaves v) :: h)

variable {post : α → Option Profile → List Note → Prop} {v : Option Profile} {h : List Note}

theorem keeps_keep {p : Profile} {next : Unit → Talk α} :
    Keeps inv mark post (.ask (.keep p) next) v h ↔ Keeps inv mark post (next ()) (some p) h :=
  Iff.rfl

/-- At a question for others the invariant holds, and the dialogue goes on with any answer. -/
theorem keeps_ask {q : Query} (hq : q.Outward) {next : q.Answer → Talk α} :
    Keeps inv mark post (.ask q next) v h ↔
      inv v (mark (.asks q) :: mark (.leaves v) :: h) ∧
        ∀ a, Keeps inv mark post (next a) v
          (mark (.hears q a) :: mark (.asks q) :: mark (.leaves v) :: h) := by
  cases q with
  | keep p => exact hq.elim
  | run e => exact Iff.rfl
  | prompt message => exact Iff.rfl
  | fetch name => exact Iff.rfl
  | store name secret => exact Iff.rfl
  | erase name => exact Iff.rfl

/-- **Sequences**: the second part takes over where the first one ends. -/
theorem keeps_bind {f : α → Talk β} {post : β → Option Profile → List Note → Prop} (t : Talk α)
    (v : Option Profile) (h : List Note) :
    Keeps inv mark post (t.bind f) v h ↔
      Keeps inv mark (fun x v h => Keeps inv mark post (f x) v h) t v h := by
  induction t generalizing v h with
  | done x => exact Iff.rfl
  | ask q next ih =>
    rcases q.outward_or_keep with hq | ⟨p, rfl⟩
    · rw [Dialogue.ask_bind, keeps_ask hq, keeps_ask hq]
      exact and_congr_right fun _ => forall_congr' fun a => ih a v _
    · exact ih () (some p) h

/-- A weaker condition in the end. -/
theorem Keeps.mono {post post' : α → Option Profile → List Note → Prop} {t : Talk α}
    (ht : Keeps inv mark post t v h) (himp : ∀ x v h, post x v h → post' x v h) :
    Keeps inv mark post' t v h := by
  induction t generalizing v h with
  | done x => exact himp x v h ht
  | ask q next ih =>
    rcases q.outward_or_keep with hq | ⟨p, rfl⟩
    · rw [keeps_ask hq] at ht ⊢
      exact ⟨ht.1, fun a => ih a (ht.2 a)⟩
    · exact ih () ht

/-- A sequence by its parts. -/
theorem Keeps.bind {f : α → Talk β} {mid : α → Option Profile → List Note → Prop}
    {post : β → Option Profile → List Note → Prop} {t : Talk α} (ht : Keeps inv mark mid t v h)
    (hf : ∀ x v h, mid x v h → Keeps inv mark post (f x) v h) :
    Keeps inv mark post (t.bind f) v h :=
  (keeps_bind t v h).mpr (ht.mono hf)

end Talk

end RemoteShell.Elevation
