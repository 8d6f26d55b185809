import RemoteShell.Proofs.Execution.Grounds
import RemoteShell.Proofs.Execution.Waits

/-!
# Commands that are refused

A command that is refused ends at the instant of its call, for the first reason that there is.
Nobody is asked for anything and nothing is changed.

## Main results

* `refused_on_first_ground`: a refused command has no effect
-/

namespace RemoteShell.Hub

open Circuit (HostCall)
open Execution (Ground Task)

namespace Traffic

/-- **A refused command has no effect.**  At any moment a command with a new number is admitted if
there is no reason to refuse it, and else it ends at once with the fault of the first reason.
Nothing is asked for, the other calls and the pool and the elevation engine are as they were, and so
is whatever the circuits answer from then on.  The rest of the cool-down that it may be told is
exact. -/
theorem refused_on_first_ground (s : Traffic) (now : Instant) (id : CallId) (t : Task)
    (cancelled : Bool) (hnew : s.calls.get? id = none) :
    (s.hub.admits t cancelled now = true ↔ Ground.first? s.hub t cancelled now = none) ∧
    (∀ g, Ground.first? s.hub t cancelled now = some g →
      ∃ s', s.step now (.execute id t cancelled) = some s' ∧
        s'.journal = .ended id t.target.host false
          (.finished (.error (g.fault s.hub t now))) now :: s.journal ∧
        s.asked id [(now, .execute id t cancelled)] = [] ∧
        s'.calls = s.calls ∧ s'.orphans = s.orphans ∧ s'.hub.pool = s.hub.pool ∧
        s'.hub.elevation = s.hub.elevation ∧
        ∀ cs : List HostCall, (s'.hub.circuits.serveAll cs).1 = (s.hub.circuits.serveAll cs).1) ∧
    ∀ since later, (s.hub.circuits.breaker t.target.host).openedAt = some since → since ≤ now →
      now ≤ later →
        ((s.hub.circuits.breaker t.target.host).state s.hub.circuits.policy later = .opened ↔
          later.since now <
            (s.hub.circuits.breaker t.target.host).remaining s.hub.circuits.policy now) := by
  refine ⟨Execution.admits_iff, fun g hg => ?_, fun since later hopened hsince hlater =>
    Circuit.Breaker.opened_iff_lt_remaining hopened hsince hlater⟩
  obtain ⟨circuits, halike, hstart⟩ := Execution.start_of_ground hg id
  have hadmits : s.hub.admits t cancelled now = false := by
    by_contra hadmits
    cases hg.symm.trans (Execution.admits_iff.mp (eq_true_of_ne_false hadmits))
  have hstep : s.step now (.execute id t cancelled) =
      some (s.after id t.target.host false now
        ({ s.hub with circuits := circuits },
          .ends (.finished (.error (g.fault s.hub t now))))) := by
    rw [step, if_neg (by simp [Assoc.has, hnew]), hadmits, hstart]
  have hcalls : s.calls.erase id = s.calls := Assoc.erase_of_get?_eq_none hnew
  refine ⟨_, hstep, rfl, ?_, hcalls, rfl, rfl, rfl, halike.serveAll⟩
  rw [asked_cons hstep, asked, List.append_nil]
  exact (gone_of_get?_eq_none (Assoc.get?_erase_self ..)).asks_eq _

/-- Two commands were refused by the host, and its circuit refuses a third one. -/
theorem refused_after_twoRefused :
    ∃ s, (idle { Settings.standard ⟨[]⟩ with circuit := ⟨2, ⟨60⟩⟩ }).run twoRefused = some s ∧
      Ground.first? s.hub (listing "w") false ⟨7⟩ = some .circuit ∧
      ∃ s', s.step ⟨7⟩ (.execute 2 (listing "w") false) = some s' ∧
        s'.journal = .ended 2 "a" false (.finished (.error (.circuitOpen "a" ⟨58⟩))) ⟨7⟩ ::
          s.journal ∧
        s.asked 2 [(⟨7⟩, .execute 2 (listing "w") false)] = [] := by
  obtain ⟨s, hs, hnew, hground, hfault⟩ :
      ∃ s, (idle { Settings.standard ⟨[]⟩ with circuit := ⟨2, ⟨60⟩⟩ }).run twoRefused = some s ∧
        s.calls.get? 2 = none ∧ Ground.first? s.hub (listing "w") false ⟨7⟩ = some .circuit ∧
        Ground.circuit.fault s.hub (listing "w") ⟨7⟩ = .circuitOpen "a" ⟨58⟩ :=
    ⟨_, rfl, rfl, by decide, rfl⟩
  obtain ⟨s', hstep, hjournal, hasked, -⟩ :=
    (refused_on_first_ground s ⟨7⟩ 2 (listing "w") false hnew).2.1 _ hground
  rw [hfault] at hjournal
  exact ⟨s, hs, hground, s', hstep, hjournal, hasked⟩

end Traffic

end RemoteShell.Hub
