import RemoteShell.Proofs.Circuit.Hosts
import RemoteShell.Proofs.Execution.Grounds

/-!
# Dealings with the circuits

A command deals with the circuit of its host twice at most: when it comes, if it is well-formed, and
when it ends, if its result says something about the host.  A reset by hand is a dealing of nobody.
These are all the dealings that the circuits of a service ever have, so what a circuit says can be
read off them.  Those by which a command ends are noted.

## Main definitions

* `FaultKind.counting`: the kinds of faults that count
* `Note.verdict?`, `verdicts`: what notes mean for the circuit of a host
* `Dealing`: a call on the circuit of a host, and whose it is
* `Traffic.newNotes`, `Traffic.dealings`: the notes that an event leaves, and the dealings in a run

## Main results

* `journal_step`: an event leaves one note at most
* `recalls_step`, `recalls_run`: the circuits recall the dealings
-/

namespace RemoteShell

open Circuit

/-! ## Faults that count -/

/-- The kinds of faults that count against a host. -/
def FaultKind.counting : List FaultKind :=
  [.connectionTimeout, .unreachable, .connectionLost, .authenticationFailed, .key, .protocol,
    .commandTimeout]

/-- A fault that counts is a failure of the host, and the lack of a method of elevation a
success. -/
theorem Execution.circuits_report_error (host : String) (f : Fault) (now : Instant) (h : Hub) :
    (report host (.error f) now h).circuits =
      if f.kind = .elevationUnavailable then h.circuits.success host
      else if f.kind ∈ FaultKind.counting then h.circuits.failure host now
      else h.circuits := by
  cases f <;> rfl

theorem Execution.circuits_abandon (x : Execution) (h : Hub) :
    (x.abandon h).circuits = h.circuits := by
  unfold abandon
  split <;> rfl

namespace Hub

/-! ## Notes -/

/-- What the end of a command means for the circuit of its host. -/
def verdict? (admitted : Bool) (now : Instant) : Execution.Result → Option Circuit.Call
  | .finished (.ok _) => some .success
  | .finished (.error f) =>
    if f.kind = .elevationUnavailable then some .success
    else if admitted ∧ f.kind ∈ FaultKind.counting then some (.failure now)
    else none
  | .crashed => none

/-- What a note means for the circuit of a host. -/
def Note.verdict? (host : String) : Note → Option Circuit.Call
  | .ended _ h admitted r now => if h = host then Hub.verdict? admitted now r else none
  | .reset h => if h = host then some .reset else none

/-- Does an event begin the command of a number? -/
def Event.executes (id : CallId) : Event → Bool
  | .execute i .. => i = id
  | _ => false

/-- The command that a note is about. -/
def Note.call? : Note → Option CallId
  | .ended id .. => some id
  | .reset _ => none

/-- The call that an event is about. -/
def Event.call? : Event → Option CallId
  | .execute id .. | .order id _ | .answer id _ | .cancel id | .abandon id => some id
  | .reset _ | .clear _ => none

/-- **What the notes mean for the circuit of a host**, the latest first. -/
def verdicts (host : String) (journal : List Note) : List Circuit.Call :=
  journal.filterMap (Note.verdict? host)

/-! ## Dealings -/

/-- **A dealing with the circuit of a host**, and the command whose it is. -/
structure Dealing where
  caller : Option CallId
  call : Circuit.Call
  deriving DecidableEq

/-- What a circuit is told in some dealings. -/
def told (l : List Dealing) : List Circuit.Call := l.map Dealing.call

/-- The dealing that is noted. -/
def Note.dealing? (host : String) (n : Note) : Option Dealing :=
  (n.verdict? host).map fun c => ⟨n.call?, c⟩

/-- A well-formed command comes to the circuit of its host. -/
def Event.gatings (host : String) (now : Instant) : Event → List Dealing
  | .execute id t cancelled =>
    if t.target.host = host ∧ Execution.refusal t cancelled = .ok () then
      [⟨some id, .acquire now⟩]
    else []
  | _ => []

namespace Traffic

variable {s t u : Traffic} {now : Instant} {e : Event} {id : CallId} {host : String}
  {es fs : List (Instant × Event)} {past : String → List Circuit.Call} {r : Registry} {p : Policy}

/-- The notes that an event has left. -/
def newNotes (s t : Traffic) : List Note := t.journal.take (t.journal.length - s.journal.length)

/-- The dealings in an event that leads to a state, the latest first. -/
def dealingsIn (host : String) (s t : Traffic) (now : Instant) (e : Event) : List Dealing :=
  (s.newNotes t).filterMap (Note.dealing? host) ++ e.gatings host now

/-- **The dealings with the circuit of a host** in a run, the latest first. -/
def dealings (host : String) (s : Traffic) : List (Instant × Event) → List Dealing
  | [] => []
  | (now, e) :: es =>
    (s.step now e).elim [] fun t => t.dealings host es ++ s.dealingsIn host t now e

/-! ## What an event leaves -/

theorem newNotes_same (h : t.journal = s.journal) : s.newNotes t = [] := by
  rw [newNotes, h, Nat.sub_self, List.take_zero]

theorem newNotes_cons {n : Note} (h : t.journal = n :: s.journal) : s.newNotes t = [n] := by
  rw [newNotes, h, List.length_cons, Nat.add_sub_cancel_left]
  rfl

theorem journal_after (s : Traffic) (id : CallId) (host : String) (admitted : Bool)
    (now : Instant) (p : Hub × Progress Execution Execution.Result) :
    (s.after id host admitted now p).journal = s.journal ∨
      ∃ n, (s.after id host admitted now p).journal = n :: s.journal ∧ n.call? = some id := by
  obtain ⟨h, y | r⟩ := p
  · exact .inl rfl
  · exact .inr ⟨_, rfl, rfl⟩

theorem journal_afterRemoval (s : Traffic) (id : CallId) (p : Hub × Progress Pool.Removal Nat) :
    (s.afterRemoval id p).journal = s.journal := by
  obtain ⟨h, r | n⟩ := p <;> rfl

/-- **An event leaves one note at most**, about its command. -/
theorem journal_step (hs : s.step now e = some t) :
    t.journal = s.journal ∨ ∃ n, t.journal = n :: s.journal ∧ n.call? = e.call? := by
  cases happens hs with
  | executes new => exact s.journal_after ..
  | orders new => exact .inl (s.journal_afterRemoval ..)
  | resumes call hears => exact s.journal_after ..
  | removes call hears => exact .inl (s.journal_afterRemoval ..)
  | cancels call => exact (s.orphan _).journal_after ..
  | abandons call => exact .inl rfl
  | resets host => exact .inr ⟨_, rfl, rfl⟩
  | clears host => exact .inl rfl

/-- The notes before an event stand below those that it leaves. -/
theorem verdicts_of_step (hs : s.step now e = some t) (host : String) :
    verdicts host t.journal = verdicts host (s.newNotes t) ++ verdicts host s.journal := by
  rcases journal_step hs with hsame | ⟨n, hnote, -⟩
  · rw [newNotes_same hsame, hsame]
    rfl
  · rw [newNotes_cons hnote, hnote]
    exact List.filterMap_append (l := [n])

/-! ## Recalling the dealings -/

/-- What the notes of an event mean for the circuits is added to the histories. -/
def Noted (s t : Traffic) (past : String → List Circuit.Call) (host : String) :
    List Circuit.Call :=
  verdicts host (s.newNotes t) ++ past host

/-- Nothing is noted. -/
theorem recalls_same (hr : r.Recalls p past) (hjournal : t.journal = s.journal) :
    r.Recalls p (s.Noted t past) := by
  have hnoted : s.Noted t past = past := by
    funext host
    rw [Noted, newNotes_same hjournal]
    rfl
  rw [hnoted]
  exact hr

/-- What is noted means nothing for the circuits. -/
theorem recalls_idle {n : Note} (hr : r.Recalls p past) (hjournal : t.journal = n :: s.journal)
    (hn : ∀ host, n.verdict? host = none) : r.Recalls p (s.Noted t past) := by
  have hnoted : s.Noted t past = past := by
    funext host
    rw [Noted, newNotes_cons hjournal, verdicts, List.filterMap_cons_none (hn host)]
    rfl
  rw [hnoted]
  exact hr

/-- A circuit is told something, and what is noted says so. -/
theorem recalls_told {n : Note} {c : Circuit.Call}
    (hr : r.Recalls p (Function.update past host (c :: past host)))
    (hjournal : t.journal = n :: s.journal)
    (hn : ∀ h, n.verdict? h = if host = h then some c else none) :
    r.Recalls p (s.Noted t past) := by
  have hnoted : s.Noted t past = Function.update past host (c :: past host) := by
    funext h
    rw [Noted, newNotes_cons hjournal]
    by_cases hh : h = host
    · subst hh
      rw [Function.update_self, verdicts, List.filterMap_cons_some ((hn h).trans (if_pos rfl))]
      rfl
    · rw [Function.update_of_ne hh, verdicts,
        List.filterMap_cons_none ((hn h).trans (if_neg (Ne.symm hh)))]
      rfl
  rw [hnoted]
  exact hr

/-- **The end of a command is reported as it is noted.** -/
theorem recalls_report {h : Hub} {x : Except Fault Execution.Outcome}
    (hr : h.circuits.Recalls p past)
    (hjournal : t.journal = .ended id host true (.finished x) now :: s.journal) :
    (Execution.report host x now h).circuits.Recalls p (s.Noted t past) := by
  cases x with
  | ok o => exact recalls_told (hr.success host) hjournal fun _ => rfl
  | error f =>
    rw [Execution.circuits_report_error]
    split
    · next hun =>
      refine recalls_told (hr.success host) hjournal fun h => ?_
      simp [Note.verdict?, verdict?, hun]
    · next hun =>
      split
      · next hcount =>
        refine recalls_told (hr.failure host now) hjournal fun h => ?_
        simp [Note.verdict?, verdict?, hun, hcount]
      · next hcount =>
        refine recalls_idle hr hjournal fun h => ?_
        simp [Note.verdict?, verdict?, hun, hcount]

/-- A turn of a command that was admitted. -/
theorem recalls_turn {task : Execution.Task} {caller : CallId} {heard : List Answer} {h : Hub}
    {b : Option Pool.Call} {x : Hub × Progress Execution Execution.Result}
    (hr : h.circuits.Recalls p past) (hx : Execution.Turn caller task heard now h b x)
    (id : CallId) : (s.after id task.target.host true now x).hub.circuits.Recalls p
      (s.Noted (s.after id task.target.host true now x) past) := by
  cases hx with
  | waits caller same moves => exact recalls_same (moves.circuits.symm ▸ hr) rfl
  | ends moves => exact recalls_report (moves.circuits.symm ▸ hr) rfl
  | crashes moves => exact recalls_idle (moves.circuits.symm ▸ hr) rfl fun host => ite_self none

theorem recalls_afterRemoval {x : Hub × Progress Pool.Removal Nat}
    (hr : s.hub.circuits.Recalls p past) (hx : x.1.circuits = s.hub.circuits) :
    (s.afterRemoval id x).hub.circuits.Recalls p (s.Noted (s.afterRemoval id x) past) := by
  refine recalls_same ?_ (s.journal_afterRemoval id x)
  obtain ⟨h, r | n⟩ := x <;> exact hx.symm ▸ hr

/-- A command that was not admitted means nothing for any circuit. -/
theorem recalls_refused {f : Fault} (hr : r.Recalls p past) (hf : f.kind ≠ .elevationUnavailable)
    (hjournal : t.journal = .ended id host false (.finished (.error f)) now :: s.journal) :
    r.Recalls p (s.Noted t past) :=
  recalls_idle hr hjournal fun h => by simp [Note.verdict?, verdict?, hf]

theorem told_dealingsIn (host : String) (s t : Traffic) (now : Instant) (e : Event) :
    told (s.dealingsIn host t now e) =
      verdicts host (s.newNotes t) ++ told (e.gatings host now) := by
  rw [told, dealingsIn, List.map_append, List.map_filterMap]
  refine congrArg (· ++ _) (List.filterMap_congr fun n _ => ?_)
  rw [Note.dealing?, Option.map_map]
  exact congrFun Option.map_id _

/-- A well-formed command comes to the circuit of its host, and to no other. -/
theorem recalls_gatings {task : Execution.Task} {cancelled : Bool}
    (href : Execution.refusal task cancelled = .ok ()) (hr : r.Recalls p past) (id : CallId)
    (now : Instant) :
    (r.acquire task.target.host now).2.Recalls p fun host =>
      told ((Event.execute id task cancelled).gatings host now) ++ past host := by
  have hgatings : (fun host =>
      told ((Event.execute id task cancelled).gatings host now) ++ past host) =
        Function.update past task.target.host (.acquire now :: past task.target.host) := by
    funext host
    by_cases hh : task.target.host = host
    · subst hh
      simp [Event.gatings, href, told]
    · rw [Function.update_of_ne (Ne.symm hh)]
      simp [Event.gatings, hh, told]
  rw [hgatings]
  exact hr.acquire task.target.host now

/-- **One event**: the circuits recall its dealings. -/
theorem recalls_step (hr : s.hub.circuits.Recalls p past) (hs : s.step now e = some t) :
    t.hub.circuits.Recalls p fun host => told (s.dealingsIn host t now e) ++ past host := by
  have hsplit : (fun host => told (s.dealingsIn host t now e) ++ past host) =
      s.Noted t fun host => told (e.gatings host now) ++ past host := by
    funext host
    rw [told_dealingsIn, List.append_assoc, Noted]
  rw [hsplit]
  cases happens hs with
  | @executes id task cancelled new =>
    rcases Execution.start_cases id task cancelled now s.hub with
      ⟨f, href, hstart⟩ | ⟨f, href, hgate, hstart⟩ | ⟨href, hgate, hturn⟩
    · -- It is wrong in itself, so no circuit hears of it.
      have hadmits : s.hub.admits task cancelled now = false := by
        simp [admits, href, Except.isOk, Except.toBool]
      have hkind : f.kind ≠ .elevationUnavailable := by
        rcases Execution.refusal_error s.hub now href with h | h <;> simp [h]
      have hnone (host : String) :
          told ((Event.execute id task cancelled).gatings host now) ++ past host = past host := by
        simp [Event.gatings, href, told]
      rw [hstart, hadmits]
      simp only [hnone]
      exact recalls_refused hr hkind rfl
    · -- The circuit refuses it, and has heard that it came.
      have hadmits : s.hub.admits task cancelled now = false := by
        simp [admits, hgate, Except.isOk, Except.toBool]
      have hkind : f.kind ≠ .elevationUnavailable := by simp [Registry.acquire_error hgate]
      rw [hstart, hadmits]
      exact recalls_refused (recalls_gatings href hr id now) hkind rfl
    · have hadmits : s.hub.admits task cancelled now = true := by
        simp [admits, href, hgate, Except.isOk, Except.toBool]
      rw [hadmits]
      exact recalls_turn (recalls_gatings href hr id now) hturn id
  | orders new => exact recalls_afterRemoval hr rfl
  | @resumes id a x call hears =>
    obtain ⟨heard, -, -, hturn⟩ := Execution.resume_turn hears now
    exact recalls_turn hr hturn id
  | removes call hears => exact recalls_afterRemoval hr rfl
  | @cancels id x call =>
    have hsame : (x.abandon s.hub).circuits = s.hub.circuits := x.circuits_abandon s.hub
    refine recalls_idle (hsame.symm ▸ hr) rfl fun host => ?_
    simp [Note.verdict?, verdict?, Fault.kind, FaultKind.counting]
  | @abandons id c call =>
    refine recalls_same ?_ rfl
    cases c with
    | execution x => exact (x.circuits_abandon s.hub).symm ▸ hr
    | removal r => exact hr
  | resets host => exact recalls_told (hr.reset host) rfl fun _ => rfl
  | clears host => exact recalls_same hr rfl

theorem dealings_cons (ht : s.step now e = some t) :
    s.dealings host ((now, e) :: es) = t.dealings host es ++ s.dealingsIn host t now e := by
  rw [dealings, ht]
  rfl

/-- **The circuits recall the dealings of a run.** -/
theorem recalls_run (hr : s.hub.circuits.Recalls p past) (hrun : s.run es = some t) :
    t.hub.circuits.Recalls p fun host => told (s.dealings host es) ++ past host := by
  induction es generalizing s past with
  | nil =>
    cases hrun
    exact hr
  | cons y es ih =>
    obtain ⟨now, e⟩ := y
    obtain ⟨u, hstep, hrun⟩ := Option.bind_eq_some_iff.mp hrun
    have hrecalls := ih (recalls_step hr hstep) hrun
    simp only [dealings_cons hstep, told, List.map_append, List.append_assoc]
    exact hrecalls

/-- Runs after each other have the dealings of both. -/
theorem dealings_append (hrun : s.run es = some t) :
    s.dealings host (es ++ fs) = t.dealings host fs ++ s.dealings host es := by
  induction es generalizing s with
  | nil =>
    cases hrun
    exact (List.append_nil _).symm
  | cons y es ih =>
    obtain ⟨now, e⟩ := y
    obtain ⟨u, hstep, hrun⟩ := Option.bind_eq_some_iff.mp hrun
    rw [List.cons_append, dealings_cons hstep, dealings_cons hstep, ih hrun, List.append_assoc]

end Traffic

end Hub

end RemoteShell
