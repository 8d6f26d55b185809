import RemoteShell.Proofs.Execution.Tries

/-!
# What a command asks others for

Whatever a command wants of others it waits for: a connection, a sign of life, the reply to a
request, a secret, an answer of the operator, the end of a connection, a pause or its turn.  So the
waits that a command begins are all that is seen of it, and they begin only in events that are about
the command.

## Main definitions

* `Traffic.asks`: the wait that a command has come to in an event
* `Traffic.asked`: the waits that a command begins in a run

## Main results

* `Gone.asked_eq`: a command that is over begins none
-/

namespace RemoteShell.Hub.Traffic

variable {s t : Traffic} {now : Instant} {e : Event} {id : CallId} {es : List (Instant × Event)}

/-- The wait that a command has come to in an event that was about it. -/
def asks (t : Traffic) (id : CallId) (e : Event) : List Wait :=
  if e.call? = some id then
    match t.calls.get? id with
    | some (.execution x) => [x.wait t.hub]
    | _ => []
  else []

/-- **The waits that a command begins in a run.** -/
def asked (id : CallId) (s : Traffic) : List (Instant × Event) → List Wait
  | [] => []
  | (now, e) :: es => (s.step now e).elim [] fun t => t.asks id e ++ t.asked id es

theorem asked_cons (ht : s.step now e = some t) :
    s.asked id ((now, e) :: es) = t.asks id e ++ t.asked id es := by
  rw [asked, ht]
  rfl

theorem Gone.asks_eq (hgone : t.Gone id) (e : Event) : t.asks id e = [] := by
  unfold asks
  split
  · split
    · next x hx => exact absurd hx (hgone x)
    · rfl
  · rfl

/-- **A command that is over asks for nothing**, whatever else happens. -/
theorem Gone.asked_eq (hgone : s.Gone id) (hes : ∀ y ∈ es, y.2.executes id = false) :
    s.asked id es = [] := by
  induction es generalizing s with
  | nil => rfl
  | cons y es ih =>
    obtain ⟨now, e⟩ := y
    obtain ⟨he, hes⟩ := List.forall_mem_cons.mp hes
    cases ht : s.step now e with
    | none =>
      rw [asked, ht]
      rfl
    | some t =>
      have hnext := hgone.step he ht
      rw [asked_cons ht, hnext.asks_eq, List.nil_append]
      exact ih hnext hes

end RemoteShell.Hub.Traffic
