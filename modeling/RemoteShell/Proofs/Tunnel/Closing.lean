import RemoteShell.Tunnel

/-!
# One close for a tunnel

A call that does not deliver its connection starts exactly one close of the tunnel, whatever happens
to it and in whatever order, and one that delivers starts none: the close starts when the guard lets
go of the tunnel, and the guard lets go once.

It is another question whether that close is carried through, to its end or to the limit.  A close
in the background is.  A close that the call waits for is carried through unless the caller gives
the call up in the meantime: the guard has let go by then, and nobody is left to go on with the
close.

## Main definitions

* `Passage.run`: a call through any events, with the closes that it starts
* `Passage.Held`: the guard owns the tunnel as long as the connection is being made
* `Course.Delivered`, `Course.closings`: what a call in time comes to
* `Closing.CarriedThrough`: a close that ends when it is done or at the limit
* `Plan.GivenUpInClose`: the caller gives up while the call waits for the close

## Main results

* `Passage.length_run`: the number of closes, by how far the call has come
* `course_cases`: what a call in time comes to
* `closed_once_iff`: one close for a call in time, and when it is carried through
* `cut_when_given_up_in_close`: a short close that never ends
-/

namespace RemoteShell.Tunnel

variable {α : Type}

/-! ## Calls through any events -/

namespace Passage

/-- Events happen to a call, one after another; the closes that it starts. -/
def run (p : Passage α) : List (Event α) → Passage α × List Start
  | [] => (p, [])
  | e :: es => ((step p e).1.run es |>.1, (step p e).2.toList ++ ((step p e).1.run es).2)

/-- **The guard owns the tunnel** as long as the connection is being made. -/
def Held (p : Passage α) : Prop := p.guarded = true ↔ p.phase = .carrying

/-- How many closes a call has started that has come so far. -/
def closesDue (p : Passage α) : Nat :=
  match p.phase with
  | .carrying | .ended (.ok _) => 0
  | .closing _ | .ended (.error _) | .dropped => 1

/-- The guard of a connection that is made is disarmed before it goes. -/
theorem step_delivered (a : α) :
    step start (.settled (.ok a)) = (⟨.ended (.ok a), false⟩, none) := rfl

/-- The tunnel of a connection that is not made is taken from the guard. -/
theorem step_failed (f : Fault) :
    step (start : Passage α) (.settled (.error f)) = (⟨.closing f, false⟩, some .awaited) := rfl

/-- The guard of a call whose close is over owns nothing when it goes. -/
theorem step_closeOver (f : Fault) :
    step (⟨.closing f, false⟩ : Passage α) .closeOver = (⟨.ended (.error f), false⟩, none) := rfl

theorem held_start : Held (start : Passage α) := ⟨fun _ => rfl, fun _ => rfl⟩

/-- An event leaves the guard as it has to be, and starts the closes that become due. -/
theorem Held.step {p : Passage α} (h : p.Held) (e : Event α) :
    (step p e).1.Held ∧ (Tunnel.step p e).2.toList.length + p.closesDue =
      (Tunnel.step p e).1.closesDue := by
  obtain ⟨phase, guarded⟩ := p
  cases phase with
  | carrying =>
    obtain rfl : guarded = true := h.mpr rfl
    cases e with
    | settled r =>
      cases r with
      | ok a => exact ⟨⟨nofun, nofun⟩, rfl⟩
      | error f => exact ⟨⟨nofun, nofun⟩, rfl⟩
    | closeOver => exact ⟨h, rfl⟩
    | dropped => exact ⟨⟨nofun, nofun⟩, rfl⟩
  | closing f =>
    obtain rfl : guarded = false := Bool.eq_false_iff.mpr fun hg => nomatch h.mp hg
    cases e with
    | settled r => exact ⟨h, Nat.zero_add _⟩
    | closeOver => exact ⟨⟨nofun, nofun⟩, rfl⟩
    | dropped => exact ⟨⟨nofun, nofun⟩, rfl⟩
  | ended r => exact ⟨h, Nat.zero_add _⟩
  | dropped => exact ⟨h, Nat.zero_add _⟩

/-- Whatever happens, the closes are started that become due. -/
theorem Held.run {p : Passage α} (h : p.Held) (es : List (Event α)) :
    (p.run es).2.length + p.closesDue = (p.run es).1.closesDue := by
  induction es generalizing p with
  | nil => exact Nat.zero_add _
  | cons e es ih =>
    obtain ⟨hnext, hdue⟩ := h.step e
    have hrest := ih hnext
    simp only [Passage.run, List.length_append]
    omega

/-- **One close at most**: a call has started one when the connection was not made or the caller has
given up, and none as long as the connection is being made and when it is delivered. -/
theorem length_run (es : List (Event α)) :
    ((start : Passage α).run es).2.length = (start.run es).1.closesDue :=
  held_start.run es

end Passage

/-! ## Calls in time -/

/-- Did the call deliver a connection? -/
def Course.Delivered (c : Course α) : Prop := ∃ a, c.phase = .ended (.ok a)

/-- All closes of the tunnel that a call in time comes to. -/
def Course.closings (c : Course α) : List Closing := c.awaited.toList ++ c.background.toList

/-- How long a close goes on that nobody disturbs. -/
def closeSpan (closeTime : Option Duration) : Duration :=
  closeTime.elim closeLimit fun t => .least t closeLimit

/-- **A close that is carried through**: it goes on to its end or to the limit, and it is done if it
takes no longer than that. -/
structure Closing.CarriedThrough (closeTime : Option Duration) (k : Closing) : Prop where
  finish : k.finish = k.start.plus (closeSpan closeTime)
  complete : k.complete = true ↔ ∃ t, closeTime = some t ∧ t ≤ closeLimit

/-- The caller gives the call up after the connection was not made, and before the close is over
that the call waits for. -/
def Plan.GivenUpInClose (x : Plan α) (drop : Option Duration) : Prop :=
  (∃ f, x.outcome = .error f) ∧
    ∃ c, drop = some c ∧ x.duration ≤ c ∧ c < x.duration.plus (closeSpan x.closeTime)

section Bounded

variable {start c : Duration} {closeTime : Option Duration}

theorem bounded_eq (start : Duration) (closeTime : Option Duration) :
    bounded start closeTime =
      ⟨start, start.plus (closeSpan closeTime),
        closeTime.any fun t => decide (t ≤ closeLimit)⟩ := by
  cases closeTime with
  | none => rfl
  | some t =>
    have hle : t ≤ closeLimit ↔ ¬ closeLimit < t := Nat.not_lt.symm
    by_cases ht : closeLimit < t <;>
      simp [bounded, closeSpan, Duration.least, Option.elim, ht, hle]

/-- A close that nobody disturbs is carried through. -/
theorem carriedThrough_bounded (start : Duration) (closeTime : Option Duration) :
    (bounded start closeTime).CarriedThrough closeTime where
  finish := by rw [bounded_eq]
  complete := by
    rw [bounded_eq]
    simp only [Option.any_eq_true, decide_eq_true_iff]

/-- A close that is cut before it is over is not. -/
theorem not_carriedThrough_cut (hc : c < start.plus (closeSpan closeTime)) :
    ¬ ((bounded start closeTime).cut c).CarriedThrough closeTime := by
  intro h
  have hfinish : c = start.plus (closeSpan closeTime) := by
    have hcut := h.finish
    rw [bounded_eq] at hcut
    exact hcut
  rw [← hfinish] at hc
  exact Nat.lt_irrefl _ hc

theorem Closing.CarriedThrough.complete_of_lt {k : Closing} (h : k.CarriedThrough closeTime)
    {t : Duration} (ht : closeTime = some t) (hlt : t < closeLimit) : k.complete = true :=
  h.complete.mpr ⟨t, ht, Nat.le_of_lt hlt⟩

end Bounded

variable {x : Plan α} {drop : Option Duration}

theorem dropsBefore_eq_some_iff {t c : Duration} :
    dropsBefore drop t = some c ↔ drop = some c ∧ c < t := by
  rw [dropsBefore, Option.filter_eq_some_iff, decide_eq_true_iff]

theorem le_of_dropsBefore_eq_none {t c : Duration} (h : dropsBefore drop t = none)
    (hc : drop = some c) : t ≤ c := by
  rw [dropsBefore, Option.filter_eq_none_iff] at h
  exact Nat.le_of_not_lt fun hlt => h c hc (decide_eq_true hlt)

/-- **What a call in time comes to**: the caller gives up while the connection is being made, it is
delivered, it is not made and the close is waited for, or the caller gives up during that close. -/
theorem course_cases (x : Plan α) (drop : Option Duration) :
    (∃ c, course x drop = ⟨.dropped, c, none, some (bounded c x.closeTime)⟩ ∧ drop = some c ∧
        c < x.duration) ∨
      (∃ a, course x drop = ⟨.ended (.ok a), x.duration, none, none⟩) ∨
      (∃ f, course x drop = ⟨.ended (.error f), x.duration.plus (closeSpan x.closeTime),
          some (bounded x.duration x.closeTime), none⟩ ∧
        ∀ c, drop = some c → x.duration.plus (closeSpan x.closeTime) ≤ c) ∨
      ∃ f c, course x drop =
          ⟨.dropped, c, some ((bounded x.duration x.closeTime).cut c), none⟩ ∧
        x.outcome = .error f ∧ drop = some c ∧ x.duration ≤ c ∧
        c < x.duration.plus (closeSpan x.closeTime) := by
  have hfinish : (bounded x.duration x.closeTime).finish =
      x.duration.plus (closeSpan x.closeTime) := by rw [bounded_eq]
  unfold course
  cases hearly : dropsBefore drop x.duration with
  | some c => exact .inl ⟨c, rfl, dropsBefore_eq_some_iff.mp hearly⟩
  | none =>
    refine .inr ?_
    cases hout : x.outcome with
    | ok a => exact .inl ⟨a, rfl⟩
    | error f =>
      refine .inr ?_
      simp only [Passage.step_failed, hfinish]
      cases hlate : dropsBefore drop (x.duration.plus (closeSpan x.closeTime)) with
      | none => exact .inl ⟨f, rfl, fun c => le_of_dropsBefore_eq_none hlate⟩
      | some c =>
        obtain ⟨hc, hlt⟩ := dropsBefore_eq_some_iff.mp hlate
        exact .inr ⟨f, c, rfl, rfl, hc, le_of_dropsBefore_eq_none hearly hc, hlt⟩

/-- A call in time is a call through some events, and it does not end while the connection is being
made. -/
theorem course_run (x : Plan α) (drop : Option Duration) :
    ∃ es, (course x drop).phase = ((Passage.start : Passage α).run es).1.phase ∧
      (course x drop).closings.length = ((Passage.start : Passage α).run es).2.length ∧
      (course x drop).phase ≠ .carrying := by
  rcases course_cases x drop with ⟨c, hx, -⟩ | ⟨a, hx⟩ | ⟨f, hx, -⟩ | ⟨f, c, hx, -⟩
  · exact ⟨[.dropped], by rw [hx]; exact ⟨rfl, rfl, nofun⟩⟩
  · exact ⟨[.settled (.ok a)], by rw [hx]; exact ⟨rfl, rfl, nofun⟩⟩
  · exact ⟨[.settled (.error f), .closeOver], by rw [hx]; exact ⟨rfl, rfl, nofun⟩⟩
  · exact ⟨[.settled (.error f), .dropped], by rw [hx]; exact ⟨rfl, rfl, nofun⟩⟩

/-- A call in time that did not deliver comes to one close. -/
theorem length_closings (h : ¬ (course x drop).Delivered) :
    (course x drop).closings.length = 1 := by
  obtain ⟨es, hphase, hlength, hover⟩ := course_run x drop
  rw [hlength, Passage.length_run, Passage.closesDue, ← hphase]
  cases hend : (course x drop).phase with
  | carrying => exact absurd hend hover
  | closing f => rfl
  | dropped => rfl
  | ended r =>
    cases r with
    | ok a => exact absurd ⟨a, hend⟩ h
    | error f => rfl

/-- **One close for a call that did not deliver**: the close of the tunnel is started exactly once,
and it is carried through, to its end or to the limit, exactly when the caller does not give up
while the call waits for it; a close that takes less than the limit is then done. -/
theorem closed_once_iff (x : Plan α) (drop : Option Duration)
    (h : ¬ (course x drop).Delivered) :
    ∃ k, (course x drop).closings = [k] ∧
      (k.CarriedThrough x.closeTime ↔ ¬ x.GivenUpInClose drop) ∧
      ∀ t, x.closeTime = some t → t < closeLimit →
        (k.complete = true ↔ ¬ x.GivenUpInClose drop) := by
  obtain ⟨k, hk⟩ := List.length_eq_one_iff.mp (length_closings h)
  refine ⟨k, hk, ?_⟩
  -- Unless the caller gives up in the close, it is as long as it is undisturbed.
  have undisturbed (start : Duration) (hstart : k = bounded start x.closeTime)
      (hnot : ¬ x.GivenUpInClose drop) :
      (k.CarriedThrough x.closeTime ↔ ¬ x.GivenUpInClose drop) ∧
        ∀ t, x.closeTime = some t → t < closeLimit →
          (k.complete = true ↔ ¬ x.GivenUpInClose drop) := by
    have hcarried : k.CarriedThrough x.closeTime := by
      rw [hstart]
      exact carriedThrough_bounded start x.closeTime
    refine ⟨iff_of_true hcarried hnot, fun t ht hlt => ?_⟩
    exact iff_of_true (hcarried.complete_of_lt ht hlt) hnot
  rcases course_cases x drop with ⟨c, hx, hc, hlt⟩ | ⟨a, hx⟩ | ⟨f, hx, hlate⟩ |
    ⟨f, c, hx, hf, hc, hle, hlt⟩
  · rw [hx] at hk
    refine undisturbed c (List.cons.inj hk).1.symm ?_
    rintro ⟨-, d, hd, hle, -⟩
    rw [hc, Option.some.injEq] at hd
    rw [hd] at hlt
    exact Nat.not_lt.mpr hle hlt
  · exact absurd ⟨a, by rw [hx]⟩ h
  · rw [hx] at hk
    refine undisturbed x.duration (List.cons.inj hk).1.symm ?_
    rintro ⟨-, c, hc, -, hlt⟩
    exact Nat.not_lt.mpr (hlate c hc) hlt
  · rw [hx] at hk
    obtain rfl : (bounded x.duration x.closeTime).cut c = k := (List.cons.inj hk).1
    have hgiven : x.GivenUpInClose drop := ⟨⟨f, hf⟩, c, hc, hle, hlt⟩
    refine ⟨iff_of_false (not_carriedThrough_cut hlt) (not_not_intro hgiven), ?_⟩
    intro t _ _
    exact iff_of_false Bool.false_ne_true (not_not_intro hgiven)

/-- A call that is given up while its connection is being made, with a close that takes a while. -/
def givenUpEarly : Plan Nat := ⟨.ok 7, .ofSecs 3600, some (.ofMillis 4999)⟩

/-- The close in the background is done. -/
theorem closed_once_of_givenUpEarly :
    ¬ (course givenUpEarly (some (.ofSecs 1))).Delivered ∧
      ∃ k, (course givenUpEarly (some (.ofSecs 1))).closings = [k] ∧ k.complete = true := by
  have hnot : ¬ (course givenUpEarly (some (.ofSecs 1))).Delivered := by
    rintro ⟨a, ha⟩
    cases ha
  have hkept : ¬ givenUpEarly.GivenUpInClose (some (.ofSecs 1)) := by
    rintro ⟨⟨f, hf⟩, -⟩
    cases hf
  obtain ⟨k, hk, -, hdone⟩ := closed_once_iff givenUpEarly (some (.ofSecs 1)) hnot
  exact ⟨hnot, k, hk, (hdone (.ofMillis 4999) rfl (by decide)).mpr hkept⟩

/-- A connection that is not made, with a close that takes a while. -/
def refusedAtOnce : Plan Nat :=
  ⟨.error (.protocol "inner handshake failed"), .zero, some (.ofMillis 100)⟩

/-- **A short close that never ends**: the caller gives up while the call waits for the close of a
tunnel, which would take a fraction of the limit; the close goes no further. -/
theorem cut_when_given_up_in_close :
    ¬ (course refusedAtOnce (some (.ofMillis 50))).Delivered ∧
      (course refusedAtOnce (some (.ofMillis 50))).closings =
        [⟨.zero, .ofMillis 50, false⟩] ∧
      ¬ Closing.CarriedThrough refusedAtOnce.closeTime ⟨.zero, .ofMillis 50, false⟩ := by
  refine ⟨?_, rfl, ?_⟩
  · rintro ⟨a, ha⟩
    cases ha
  · intro h
    have hdone := h.complete.mpr ⟨.ofMillis 100, rfl, by decide⟩
    cases hdone

end RemoteShell.Tunnel
