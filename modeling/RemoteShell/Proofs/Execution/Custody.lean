import RemoteShell.Proofs.Execution.Reflection

/-!
# Connections of cancelled commands

A command that is cancelled lets go of what it has at once.  If it runs its command, or waits for
its turn, for a new try or for a connection, nothing is lost: a connection that it has used is in
the pool, and one that is not yet made is never delivered.  But while it waits for the end of a
connection, be it one that failed, one that was taken out to make room or one that gave no sign of
life, nobody else waits for that end, and nothing in the pool speaks of the connection any more.

## Main results

* `kept_iff`: a connection that was delivered is in the pool, closed or being closed, unless the
  call that waited for its close was given up
* `forsaken_after_cancel`: else it may be lost
-/

namespace RemoteShell.Hub.Traffic

variable {s : Traffic} {c : ConnId} {es : List (Instant × Event)} {settings : Settings}
  {walk : Pool.Walk}

/-- **What becomes of connections when commands are cancelled**: at every moment of every run, a
connection that was delivered is in the pool, or it is closed, or a call waits for its close, if and
only if another close of it is over or under way in case the call that waited for its close was
cancelled or given up. -/
theorem kept_iff (h : (idle settings walk).run es = some s) (hc : c ∈ delivered es) :
    ((∃ e ∈ s.hub.pool.pooled, e.id = c) ∨ c ∈ closed es ∨ s.Closing c) ↔
      (c ∈ s.orphans → c ∈ closed es ∨ s.Closing c) := by
  obtain ⟨fs, T, hr⟩ := exists_reflection h
  have horphan : c ∈ s.orphans ↔ (RemoteShell.Traffic.idle settings.pool walk).Sometime fs
      (RemoteShell.Traffic.GivesUpClose c) := by
    rw [hr.orphans]
    exact or_iff_right List.not_mem_nil
  have hcloses := RemoteShell.Traffic.mem_closes_iff (c := c) hr.run
  rw [hr.closed, hr.mirrors.closing_iff, ← horphan] at hcloses
  have hwhere := RemoteShell.Traffic.pooled_or_mem_closes hr.run (hr.delivered.symm ▸ hc)
  rw [hr.mirrors.pool] at hwhere
  rcases hwhere with ⟨⟨e, hpooled, -⟩, hkept⟩ | ⟨hout, hgone⟩
  · refine iff_of_true (.inl ⟨e, hpooled⟩) fun horphan => ?_
    exact absurd (hcloses.mpr (.inr (.inr horphan))) hkept
  · constructor
    · rintro (⟨e, he, hid⟩ | hclose) -
      · exact absurd hid (hout e he)
      · exact hclose
    · intro hclose
      rcases hcloses.mp hgone with hclosed | hclosing | horphan
      · exact .inr (.inl hclosed)
      · exact .inr (.inr hclosing)
      · exact .inr (hclose horphan)

/-- A command is cancelled while it runs. -/
def cancelledInRun : List (Instant × Event) :=
  [(.start, .execute 0 (listing "u") false), (.start, .answer 0 (.connected (.ok 0))),
    (.start, .cancel 0)]

/-- A command that is cancelled while it runs leaves its connection in the pool. -/
theorem kept_after_cancel :
    ∃ s, (idle (.standard ⟨[]⟩)).run cancelledInRun = some s ∧ s.calls = [] ∧
      ∃ e ∈ s.hub.pool.pooled, e.id = 0 := by
  obtain ⟨s, hs, hquiet, horphans⟩ :
      ∃ s, (idle (.standard ⟨[]⟩)).run cancelledInRun = some s ∧ s.calls = [] ∧ s.orphans = [] :=
    ⟨_, rfl, rfl, rfl⟩
  refine ⟨s, hs, hquiet, ?_⟩
  rcases (kept_iff hs (c := 0) (by decide)).mpr (by simp [horphans]) with
    hpooled | hclosed | ⟨id, call, hcall, -⟩
  · exact hpooled
  · cases hclosed
  · rw [hquiet] at hcall
    cases hcall

/-- The connection of a command breaks, and the command is cancelled while it waits for the end of
the connection. -/
def cancelledInClose : List (Instant × Event) :=
  [(.start, .execute 0 (listing "u") false), (.start, .answer 0 (.connected (.ok 0))),
    (.start, .answer 0 (.replied (.error (.connectionLost "a" "reset")))), (.start, .cancel 0)]

/-- **A command that is cancelled may leave a connection behind**: it is not in the pool, it has not
been closed, and nobody waits for its close. -/
theorem forsaken_after_cancel :
    ∃ s, (idle (.standard ⟨[]⟩)).run cancelledInClose = some s ∧ s.calls = [] ∧
      s.hub.pool.pooled = [] ∧ delivered cancelledInClose = [0] ∧ closed cancelledInClose = [] :=
  ⟨_, rfl, rfl, rfl, rfl, rfl⟩

end RemoteShell.Hub.Traffic
