import RemoteShell.Proofs.Execution.Tries

/-!
# Whose dealings they are

Each dealing with a circuit can be traced to the command that had it.  A command that has come to a
wait has ended with nothing so far, so it has had no dealing since it came; and one that is over has
none at all.

## Main definitions

* `Traffic.own`: the dealings of one command

## Main results

* `caller_of_mem_dealingsIn`: the dealings in an event are those of its command
* `own_dealings_of_waits`: a command that is under way has had no dealings since it came
* `Gone.own_dealings`: a command that is over has none
-/

namespace RemoteShell.Hub

namespace Traffic

variable {s t u : Traffic} {now : Instant} {e : Event} {id : CallId} {host : String}
  {es : List (Instant × Event)}

/-- A note that an event leaves is about its command. -/
theorem call?_of_mem_newNotes (hs : s.step now e = some t) :
    ∀ n ∈ s.newNotes t, n.call? = e.call? := by
  rcases journal_step hs with hsame | ⟨n, hnote, hn⟩
  · rw [newNotes_same hsame]
    exact List.forall_mem_nil _
  · rw [newNotes_cons hnote]
    exact List.forall_mem_singleton.mpr hn

/-- **The dealings in an event are those of its command.** -/
theorem caller_of_mem_dealingsIn (hs : s.step now e = some t) :
    ∀ d ∈ s.dealingsIn host t now e, d.caller = e.call? := by
  intro d hd
  rcases List.mem_append.mp hd with hd | hd
  · obtain ⟨n, hn, hnote⟩ := List.mem_filterMap.mp hd
    obtain ⟨c, -, rfl⟩ := Option.map_eq_some_iff.mp hnote
    exact call?_of_mem_newNotes hs n hn
  · cases e with
    | execute id task cancelled =>
      simp only [Event.gatings] at hd
      split at hd
      · rw [List.mem_singleton.mp hd]
        rfl
      · cases hd
    | _ => cases hd

theorem journal_after_of_waits {y : Execution} {admitted : Bool}
    {p : Hub × Progress Execution Execution.Result} (hp : p.2 = .waits y) :
    (s.after id host admitted now p).journal = s.journal := by
  obtain ⟨h, y | r⟩ := p
  · rfl
  · cases hp

/-- A command that has come to a wait has left no note. -/
theorem journal_of_waits {x : Execution} (hs : s.step now e = some t) (hid : e.call? = some id)
    (hx : t.calls.get? id = some (.execution x)) : t.journal = s.journal := by
  rcases journal_step hs with hsame | ⟨n, hnote, -⟩
  · exact hsame
  · cases happens hs with
    | executes new =>
      cases hid
      exact journal_after_of_waits (waits_of_after hx)
    | orders new => exact s.journal_afterRemoval ..
    | resumes call hears =>
      cases hid
      exact journal_after_of_waits (waits_of_after hx)
    | removes call hears => exact s.journal_afterRemoval ..
    | cancels call =>
      cases hid
      cases (Assoc.get?_erase_self ..).symm.trans hx
    | abandons call => rfl
    | resets host => cases hid
    | clears host => rfl

/-- A number under which no command is leaves no note. -/
theorem Gone.journal_step (hgone : s.Gone id) (he : e.executes id = false)
    (hid : e.call? = some id) (hs : s.step now e = some t) : t.journal = s.journal := by
  cases happens hs with
  | executes new =>
    cases hid
    simp [Event.executes] at he
  | orders new => exact s.journal_afterRemoval ..
  | resumes call hears =>
    cases hid
    exact absurd call (hgone _)
  | removes call hears => exact s.journal_afterRemoval ..
  | cancels call =>
    cases hid
    exact absurd call (hgone _)
  | abandons call => rfl
  | resets host => cases hid
  | clears host => rfl

/-- The dealings that are a command's own. -/
def own (id : CallId) (l : List Dealing) : List Dealing := l.filter (·.caller = some id)

theorem own_append (id : CallId) (l l' : List Dealing) : own id (l ++ l') = own id l ++ own id l' :=
  List.filter_append ..

/-- A command has no dealings in an event that is not about it. -/
theorem own_dealingsIn_of_ne (hs : s.step now e = some t) (hid : e.call? ≠ some id)
    (host : String) : own id (s.dealingsIn host t now e) = [] := by
  refine List.filter_eq_nil_iff.mpr fun d hd hown => hid ?_
  rw [← caller_of_mem_dealingsIn hs d hd]
  exact of_decide_eq_true hown

/-- Nobody has dealings in an event that leaves no note and begins nothing. -/
theorem own_dealingsIn_of_journal (hjournal : t.journal = s.journal)
    (he : e.executes id = false) (hid : e.call? = some id) (host : String) (now : Instant) :
    own id (s.dealingsIn host t now e) = [] := by
  rw [dealingsIn, newNotes_same hjournal]
  cases e with
  | execute i task cancelled =>
    cases hid
    simp [Event.executes] at he
  | _ => rfl

/-- **A command that is over has no dealings.** -/
theorem Gone.own_dealings (hgone : s.Gone id) (hes : ∀ y ∈ es, y.2.executes id = false)
    (host : String) : own id (s.dealings host es) = [] := by
  induction es generalizing s with
  | nil => rfl
  | cons y es ih =>
    obtain ⟨now, e⟩ := y
    obtain ⟨he, hes⟩ := List.forall_mem_cons.mp hes
    cases ht : s.step now e with
    | none =>
      rw [dealings, ht]
      rfl
    | some t =>
      rw [dealings_cons ht, own_append, ih (hgone.step he ht) hes, List.nil_append]
      by_cases hid : e.call? = some id
      · exact own_dealingsIn_of_journal (hgone.journal_step he hid ht) he hid host now
      · exact own_dealingsIn_of_ne ht hid host

theorem Gone.run (hgone : s.Gone id) (hes : ∀ y ∈ es, y.2.executes id = false)
    (hrun : s.run es = some t) : t.Gone id := by
  induction es generalizing s with
  | nil =>
    cases hrun
    exact hgone
  | cons y es ih =>
    obtain ⟨now, e⟩ := y
    obtain ⟨he, hes⟩ := List.forall_mem_cons.mp hes
    obtain ⟨u, hstep, hrun⟩ := Option.bind_eq_some_iff.mp hrun
    exact ih (hgone.step he hstep) hes hrun

/-- A command that is under way at the end of a run was so all along. -/
theorem exists_of_run {x : Execution} (hes : ∀ y ∈ es, y.2.executes id = false)
    (hrun : s.run es = some t) (hx : t.calls.get? id = some (.execution x)) :
    ∃ x, s.calls.get? id = some (.execution x) := by
  by_contra hnone
  exact Gone.run (fun x hx => hnone ⟨x, hx⟩) hes hrun x hx

/-- **A command that is under way has no dealings** since it came. -/
theorem own_dealings_of_waits {x : Execution} (hes : ∀ y ∈ es, y.2.executes id = false)
    (hrun : s.run es = some t) (hx : t.calls.get? id = some (.execution x)) (host : String) :
    own id (s.dealings host es) = [] := by
  induction es generalizing s with
  | nil => rfl
  | cons y es ih =>
    obtain ⟨now, e⟩ := y
    obtain ⟨he, hes⟩ := List.forall_mem_cons.mp hes
    obtain ⟨u, hstep, hrun⟩ := Option.bind_eq_some_iff.mp hrun
    rw [dealings_cons hstep, own_append, ih hes hrun, List.nil_append]
    by_cases hid : e.call? = some id
    · obtain ⟨y, hy⟩ := exists_of_run hes hrun hx
      exact own_dealingsIn_of_journal (journal_of_waits hstep hid hy) he hid host now
    · exact own_dealingsIn_of_ne hstep hid host

end Traffic

end RemoteShell.Hub
