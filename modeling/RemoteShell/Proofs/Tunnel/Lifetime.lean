import RemoteShell.Proofs.Tunnel.Closing

/-!
# Calls that are left to their end

A call that nobody gives up returns what the connection came to.  If the connection is made, the
call ends with it and the tunnel is left alone.  If not, the tunnel is closed once, from the instant
at which the connection failed; the call ends with the close, or when the limit for it is over.  The
guard has let go of the tunnel by then, so its end starts nothing more.

## Main definitions

* `Plan.events`: what happens to a call that is left to its end
* `Plan.closes`: the closes that such a call starts

## Main results

* `Passage.run_ended`: nothing happens to a call that has ended
* `Passage.run_settled_error`: a connection that is not made has one close, whatever happens then
* `run_events`: a call that is left to its end, and whatever happens to it afterwards
* `course_of_outcome`: the same call in time
-/

namespace RemoteShell.Tunnel

variable {α : Type}

namespace Passage

/-- **Nothing happens to a call that has ended**, not even when its guard goes. -/
theorem run_ended (r : Except Fault α) (guarded : Bool) (es : List (Event α)) :
    (⟨.ended r, guarded⟩ : Passage α).run es = (⟨.ended r, guarded⟩, []) := by
  induction es with
  | nil => rfl
  | cons e es ih =>
    have hstep : step (⟨.ended r, guarded⟩ : Passage α) e = (⟨.ended r, guarded⟩, none) := rfl
    rw [run, hstep, ih]
    rfl

theorem closesDue_le_one (p : Passage α) : p.closesDue ≤ 1 := by
  unfold closesDue
  split <;> decide

/-- **A connection that is not made** has the close that the call waits for and no other, whatever
happens to the call then. -/
theorem run_settled_error (f : Fault) (es : List (Event α)) :
    ((start : Passage α).run (.settled (.error f) :: es)).2 = [.awaited] := by
  have hdue := length_run (.settled (.error f) :: es : List (Event α))
  have hmost := closesDue_le_one ((start : Passage α).run (.settled (.error f) :: es)).1
  rw [← hdue] at hmost
  have hfirst : ((start : Passage α).run (.settled (.error f) :: es)).2 =
      .awaited :: ((⟨.closing f, false⟩ : Passage α).run es).2 := rfl
  rw [hfirst, List.length_cons] at hmost
  have hnone : ((⟨.closing f, false⟩ : Passage α).run es).2 = [] :=
    List.eq_nil_of_length_eq_zero (by omega)
  rw [hfirst, hnone]

end Passage

/-- What happens to a call that is left to its end. -/
def Plan.events (x : Plan α) : List (Event α) :=
  match x.outcome with
  | .ok a => [.settled (.ok a)]
  | .error f => [.settled (.error f), .closeOver]

/-- The closes that a call starts which is left to its end. -/
def Plan.closes (x : Plan α) : List Start :=
  match x.outcome with
  | .ok _ => []
  | .error _ => [.awaited]

/-- **A call that is left to its end** has ended as its connection did, its guard has let go, and
nothing that happens afterwards starts another close. -/
theorem run_events (x : Plan α) (es : List (Event α)) :
    (Passage.start : Passage α).run (x.events ++ es) = (⟨.ended x.outcome, false⟩, x.closes) := by
  obtain ⟨outcome, duration, closeTime⟩ := x
  cases outcome with
  | ok a =>
    have hended := Passage.run_ended (.ok a) false es
    simp only [Plan.events, Plan.closes, List.singleton_append, Passage.run,
      Passage.step_delivered, hended]
    rfl
  | error f =>
    have hended := Passage.run_ended (.error f) false es
    simp only [Plan.events, Plan.closes, List.cons_append, List.nil_append, Passage.run,
      Passage.step_failed, Passage.step_closeOver, hended]
    rfl

/-- **A call in time** that nobody gives up ends when its connection does, or when the close is over
that follows. -/
theorem course_of_outcome (x : Plan α) :
    course x none =
      match x.outcome with
      | .ok a => ⟨.ended (.ok a), x.duration, none, none⟩
      | .error f => ⟨.ended (.error f), x.duration.plus (closeSpan x.closeTime),
          some (bounded x.duration x.closeTime), none⟩ := by
  have hfinish : (bounded x.duration x.closeTime).finish =
      x.duration.plus (closeSpan x.closeTime) := by rw [bounded_eq]
  unfold course
  cases x.outcome with
  | ok a => rfl
  | error f =>
    simp only [dropsBefore, Option.filter_none, Passage.step_failed, Passage.step_closeOver,
      hfinish]
    rfl

/-- **The lifetime of a tunnel.**  A call that nobody gives up returns the outcome of its
connection.  A connection that is made ends the call at once, and no close is ever started.  One
that is not made has one close of the tunnel, which starts when the connection failed, ends with the
call after as long as it takes or at the limit, and is done if it takes no longer than that.  No
reference to the tunnel is kept, and whatever happens to the call when it has ended, no further
close is started. -/
theorem undisturbed_call (x : Plan α) :
    (course x none).phase = .ended x.outcome ∧
    (match x.outcome with
      | .ok _ =>
        (course x none).time = x.duration ∧ (course x none).closings = [] ∧
          ∀ settle, (course x none).afterwards settle = ⟨x.duration.plus settle, 0, 0⟩
      | .error _ =>
        (course x none).time = x.duration.plus (closeSpan x.closeTime) ∧
          ∃ k, (course x none).closings = [k] ∧ (course x none).awaited = some k ∧
            k.start = x.duration ∧ k.finish = (course x none).time ∧
            (k.complete = true ↔ ∃ t, x.closeTime = some t ∧ t ≤ closeLimit) ∧
            ∀ settle, (course x none).afterwards settle =
              ⟨(course x none).time.plus settle, 1, count k.complete⟩) ∧
    (∀ settle, (course x none).owners settle = 1) ∧
    (course x none).closings.length = x.closes.length ∧
    (∀ es, (Passage.start : Passage α).run (x.events ++ es) =
      (⟨.ended x.outcome, false⟩, x.closes)) ∧
    ∀ f es, ((Passage.start : Passage α).run (.settled (.error f) :: es)).2 = [.awaited] := by
  have hcourse := course_of_outcome x
  have hruns := run_events x
  have hcarried := carriedThrough_bounded x.duration x.closeTime
  obtain ⟨outcome, duration, closeTime⟩ := x
  cases outcome with
  | ok a =>
    rw [hcourse]
    exact ⟨rfl, ⟨rfl, rfl, fun _ => rfl⟩, fun _ => rfl, rfl, hruns, Passage.run_settled_error⟩
  | error f =>
    rw [hcourse]
    refine ⟨rfl,
      ⟨rfl, bounded duration closeTime, rfl, rfl, ?_, ?_, hcarried.complete, fun _ => rfl⟩,
      fun _ => rfl, rfl, hruns, Passage.run_settled_error⟩
    · rw [bounded_eq]
    · rw [bounded_eq]

/-- The close of a tunnel that takes forever is left alone at the limit; one that takes just as long
as the limit is done. -/
example : (course (⟨.error .cancelled, .ofSecs 1, none⟩ : Plan Nat) none).awaited =
      some ⟨.ofSecs 1, .ofSecs 6, false⟩ ∧
    (course (⟨.error .cancelled, .ofSecs 1, some closeLimit⟩ : Plan Nat) none).awaited =
      some ⟨.ofSecs 1, .ofSecs 6, true⟩ := by
  decide

end RemoteShell.Tunnel
