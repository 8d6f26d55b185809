import RemoteShell.Proofs.Circuit.Probing
import RemoteShell.Proofs.Circuit.Replies

/-!
# Waiting as long as one is told

Behind an open circuit a caller is told how long to wait, in whole seconds: operators see the number
in the status, and whoever is refused reads it in the message.  Both numbers are the rest of the
cool-down, rounded down.  So whoever waits that long and asks again is refused again, unless the
rest of the cool-down is a whole number of seconds; one second more is always enough.

This is so while clocks do not go back.  A failure or a probe that is on record with a later instant
than that of the question makes the wait too short in any case.

## Main definitions

* `Breaker.Recorded`: where the instants that a breaker has on record come from
* `Breaker.UpToDate`: nothing on record is later than an instant

## Main results

* `Breaker.Recorded.serve`, `Breaker.Recorded.serveAll`: one call and many
* `Breaker.Recorded.canExecute_after_iff`: which waits are enough
* `told_wait_suffices_iff`: when the wait that is told is enough
-/

namespace RemoteShell

/-- The whole seconds of a duration are all of it if nothing is left beyond them. -/
theorem Duration.ofSecs_secs_eq_iff (d : Duration) : .ofSecs d.secs = d ↔ d.subsecNanos = 0 := by
  have hparts := d.secs_add_subsecNanos
  rw [ofSecs, Duration.mk.injEq]
  omega

theorem Duration.ofSecs_secs_le (d : Duration) : .ofSecs d.secs ≤ d := by
  have hparts := d.secs_add_subsecNanos
  simp only [Duration.le_def, ofSecs]
  omega

/-- One second more is longer than the duration. -/
theorem Duration.le_ofSecs_of_secs_lt {d : Duration} {n : Nat} (h : d.secs < n) :
    d ≤ .ofSecs n := by
  have hsecs : d.nanos < n * perSecond := (Nat.div_lt_iff_lt_mul (by decide)).mp h
  exact Nat.le_of_lt hsecs

namespace Circuit

variable {p : Policy} {b : Breaker} {told : List Instant} {cs : List Call} {c : Call}
  {now s t : Instant} {wait : Duration} {host : String}

namespace Breaker

/-! ## What is on record -/

/-- **What a breaker has on record** are instants that it was told, and a probe was let through only
when the cool-down was over. -/
structure Recorded (p : Policy) (told : List Instant) (b : Breaker) : Prop where
  opened : ∀ t, b.openedAt = some t → t ∈ told
  probed : ∀ s, b.probeAt = some s →
    s ∈ told ∧ ∃ t, b.openedAt = some t ∧ p.cooldown ≤ s.since t

/-- Nothing on record is later than an instant. -/
def UpToDate (b : Breaker) (now : Instant) : Prop :=
  ∀ t, b.openedAt = some t ∨ b.probeAt = some t → t ≤ now

theorem Recorded.fresh (p : Policy) (told : List Instant) : Recorded p told .fresh where
  opened := nofun
  probed := nofun

theorem Recorded.mono {more : List Instant} (h : Recorded p told b) (hsub : told ⊆ more) :
    Recorded p more b where
  opened t ht := hsub (h.opened t ht)
  probed s hs := (h.probed s hs).imp_left fun hmem => hsub hmem

/-- A circuit is half open when the cool-down is over. -/
theorem cooldown_le_of_halfOpen (h : b.state p now = .halfOpen) :
    ∃ t, b.openedAt = some t ∧ p.cooldown ≤ now.since t := by
  unfold state at h
  cases hopened : b.openedAt with
  | none => simp [hopened] at h
  | some t =>
    refine ⟨t, rfl, ?_⟩
    rw [hopened] at h
    by_contra hrest
    have hlt : now.since t < p.cooldown := Nat.lt_of_not_le hrest
    simp [hlt] at h

/-- A circuit is open while the cool-down is not over. -/
theorem since_lt_of_opened (h : b.state p now = .opened) :
    ∃ t, b.openedAt = some t ∧ now.since t < p.cooldown := by
  unfold state at h
  cases hopened : b.openedAt with
  | none => simp [hopened] at h
  | some t =>
    refine ⟨t, rfl, ?_⟩
    rw [hopened] at h
    by_contra hover
    simp [hover] at h

/-- **One call** puts no instant on record but its own. -/
theorem Recorded.serve (h : Recorded p told b) (c : Call) :
    Recorded p (told ++ c.instant?.toList) (b.serve p c).2 := by
  cases c with
  | failure now =>
    refine ⟨fun t ht => ?_, nofun⟩
    have hnow : t = now := by
      simp only [Breaker.serve, failure, Option.ite_none_right_eq_some, Option.some.injEq] at ht
      exact ht.2.symm
    simp [Call.instant?, hnow]
  | success => exact .fresh p _
  | reset => exact .fresh p _
  | acquire now =>
    simp only [Breaker.serve, Prod.map, id, acquire]
    cases hgate : b.canExecute p now with
    | error d => exact h.mono (List.subset_append_left _ _)
    | ok u =>
      dsimp only
      split
      · next hhalf =>
        -- The call becomes the probe.
        obtain ⟨t, ht, hover⟩ := cooldown_le_of_halfOpen hhalf
        refine ⟨fun t ht => List.mem_append_left _ (h.opened t ht), fun s hs => ?_⟩
        obtain rfl := Option.some.inj hs
        exact ⟨by simp [Call.instant?], t, ht, hover⟩
      · exact h.mono (List.subset_append_left _ _)
  | canExecute now => exact h.mono (List.subset_append_left _ _)
  | state now => exact h.mono (List.subset_append_left _ _)
  | status host now => exact h.mono (List.subset_append_left _ _)

/-- **Many calls** put no instants on record but their own. -/
theorem Recorded.serveAll (h : Recorded p told b) (cs : List Call) :
    Recorded p (told ++ cs.filterMap Call.instant?) (b.serveAll p cs).2 := by
  induction cs generalizing told b with
  | nil => exact h.mono (List.subset_append_left _ _)
  | cons c cs ih =>
    have hrest := ih (h.serve c)
    have hsplit : (c :: cs).filterMap Call.instant? =
        c.instant?.toList ++ cs.filterMap Call.instant? := by
      rw [List.filterMap_cons]
      cases c.instant? <;> rfl
    rwa [hsplit, ← List.append_assoc]

/-- If instants never go back, nothing on record is later than that of the next question. -/
theorem Recorded.upToDate (h : Recorded p (cs.filterMap Call.instant?) b)
    (ho : Ordered (cs ++ [.state now])) : b.UpToDate now := by
  intro t ht
  have htold : t ∈ cs.filterMap Call.instant? := by
    rcases ht with ht | ht
    · exact h.opened t ht
    · exact (h.probed t ht).1
  obtain ⟨c, hc, hct⟩ := List.mem_filterMap.mp htold
  exact ho.le_of_append hc hct (List.mem_singleton_self _) rfl

/-! ## Waits -/

theorem canExecute_eq_ok_iff : b.canExecute p now = .ok () ↔ b.refuses p now = false := by
  rw [canExecute_eq]
  cases b.refuses p now <;> simp

/-- Behind an open circuit nothing is on record of a probe, unless its instant is still to come. -/
theorem Recorded.probeAt_eq_none (h : Recorded p told b) (hopen : b.state p now = .opened)
    (hdate : b.UpToDate now) : b.probeAt = none := by
  obtain ⟨t, ht, hlt⟩ := since_lt_of_opened hopen
  cases hprobe : b.probeAt with
  | none => rfl
  | some s =>
    obtain ⟨-, t', ht', hover⟩ := h.probed s hprobe
    obtain rfl : t = t' := Option.some.inj (ht.symm.trans ht')
    have hs : s ≤ now := hdate s (.inr hprobe)
    simp only [Duration.lt_def, Duration.le_def, Instant.le_def, Instant.since] at *
    omega

/-- **Enough is what is left of the cool-down**, if nothing on record is still to come. -/
theorem Recorded.canExecute_after_iff_of_upToDate (h : Recorded p told b)
    (hopen : b.state p now = .opened) (hdate : b.UpToDate now) :
    b.canExecute p (now.after wait) = .ok () ↔ b.remaining p now ≤ wait := by
  obtain ⟨t, ht, -⟩ := since_lt_of_opened hopen
  have hlater : now ≤ now.after wait := Nat.le_add_right _ _
  have hstill := opened_iff_lt_remaining (p := p) ht (hdate t (.inl ht)) hlater
  rw [Instant.after_since] at hstill
  have hrefuses : b.refuses p (now.after wait) = true ↔ wait < b.remaining p now := by
    rw [← hstill, refuses, probing, h.probeAt_eq_none hopen hdate]
    cases b.state p (now.after wait) <;> simp
  rw [canExecute_eq_ok_iff, ← Bool.not_eq_true, hrefuses]
  exact Nat.not_lt

/-- What is on record and still to come makes every wait too short that is no longer than what is
left of the cool-down. -/
theorem Recorded.refuses_after (h : Recorded p told b) (hopen : b.state p now = .opened)
    (hdate : ¬ b.UpToDate now) (hwait : wait ≤ b.remaining p now) :
    b.refuses p (now.after wait) = true := by
  obtain ⟨t, ht, hlt⟩ := since_lt_of_opened hopen
  have hrest : b.remaining p now = p.cooldown.minus (now.since t) := by rw [remaining, ht]
  rw [hrest] at hwait
  by_cases hover : (now.after wait).since t < p.cooldown
  · have hstill : b.state p (now.after wait) = .opened := by rw [state, ht]; simp [hover]
    rw [refuses, hstill]
  · -- The circuit is half open, so it is a probe that is still to come.
    have hhalf : b.state p (now.after wait) = .halfOpen := by rw [state, ht]; simp [hover]
    simp only [UpToDate, not_forall] at hdate
    obtain ⟨s, hs, hlater⟩ := hdate
    simp only [Duration.lt_def, Duration.le_def, Duration.minus, Instant.le_def, Instant.since,
      Instant.after] at *
    rcases hs with hs | hs
    · obtain rfl : t = s := Option.some.inj (ht.symm.trans hs)
      omega
    · obtain ⟨-, t', ht', hcool⟩ := h.probed s hs
      obtain rfl : t = t' := Option.some.inj (ht.symm.trans ht')
      have hrunning : (now.after wait).since s < p.cooldown := by
        simp only [Duration.lt_def, Duration.le_def, Instant.since, Instant.after] at *
        omega
      rw [refuses, hhalf, probing, hs]
      exact decide_eq_true hrunning

/-- **Which waits are enough**, of those that are no longer than what is left of the cool-down: the
whole rest, if nothing on record is still to come. -/
theorem Recorded.canExecute_after_iff (h : Recorded p told b) (hopen : b.state p now = .opened)
    (hwait : wait ≤ b.remaining p now) :
    b.canExecute p (now.after wait) = .ok () ↔ wait = b.remaining p now ∧ b.UpToDate now := by
  by_cases hdate : b.UpToDate now
  · rw [h.canExecute_after_iff_of_upToDate hopen hdate, and_iff_left hdate]
    constructor
    · intro hrest
      have hnanos : wait.nanos = (b.remaining p now).nanos := Nat.le_antisymm hwait hrest
      exact congrArg Duration.mk hnanos
    · rintro rfl
      exact Nat.le_refl _
  · rw [canExecute_eq_ok_iff, h.refuses_after hopen hdate hwait]
    simp [hdate]

/-! ## What is told -/

/-- The status of an open circuit tells the seconds that are left, rounded down. -/
theorem remainingSecs_of_opened (hopen : b.state p now = .opened)
    (hp : p.cooldown.secs < UInt64.size) (host : String) :
    (b.status p host now).remainingSecs.toNat = (b.remaining p now).secs := by
  obtain ⟨t, ht, -⟩ := since_lt_of_opened hopen
  have hle : (b.remaining p now).secs ≤ p.cooldown.secs := by
    rw [remaining, ht]
    exact Nat.div_le_div_right (Nat.sub_le _ _)
  rw [status, hopen]
  exact UInt64.toNat_ofNat_of_lt' (Nat.lt_of_le_of_lt hle hp)

end Breaker

/-- **When the wait that is told is enough**, under a cool-down of no more seconds than 64 bits
count: after any calls on a new breaker, at an instant at which its circuit is open, the status
tells as many seconds as the message to a call that is refused.  Whoever waits that long, with no
call in between, is let through if and only if the rest of the cool-down is a whole number of
seconds and nothing on record is later than the instant; the latter is so if instants never go
back, and then every longer wait is enough, too. -/
theorem told_wait_suffices_iff (p : Policy) (hp : p.cooldown.secs < UInt64.size) (cs : List Call)
    (hb : (Breaker.fresh.serveAll p cs).2 = b) (hopen : b.state p now = .opened) (host : String) :
    (∃ rest, (b.acquire p now).1 = .error rest ∧
      (Fault.circuitOpen host rest).message = "Circuit open for " ++ host ++
        ": too many recent failures, retry in " ++
          toString (b.status p host now).remainingSecs.toNat ++ "s" ∧
      (b.canExecute p (now.after (.ofSecs (b.status p host now).remainingSecs.toNat)) = .ok () ↔
        rest.subsecNanos = 0 ∧ b.UpToDate now)) ∧
    (Ordered (cs ++ [.state now]) →
      b.UpToDate now ∧ ∀ n > (b.status p host now).remainingSecs.toNat,
        b.canExecute p (now.after (.ofSecs n)) = .ok ()) := by
  have hrecorded : Breaker.Recorded p (cs.filterMap Call.instant?) b := by
    have hall := (Breaker.Recorded.fresh p []).serveAll cs
    rwa [hb, List.nil_append] at hall
  rw [Breaker.remainingSecs_of_opened hopen hp host]
  refine ⟨⟨b.remaining p now, ?_, rfl, ?_⟩, fun ho => ?_⟩
  · simp only [Breaker.acquire, Breaker.canExecute, hopen]
  · rw [hrecorded.canExecute_after_iff hopen (Duration.ofSecs_secs_le _),
      Duration.ofSecs_secs_eq_iff]
  · have hdate := hrecorded.upToDate ho
    refine ⟨hdate, fun n hn => ?_⟩
    rw [hrecorded.canExecute_after_iff_of_upToDate hopen hdate]
    exact Duration.le_ofSecs_of_secs_lt hn

/-- A breaker that opens at the first failure, for a second and a half. -/
def sesquisecond : Policy := ⟨1, .ofMillis 1500⟩

/-- Half a second after the failure a second is left, and the wait that is told is enough. -/
theorem told_wait_suffices_after_half_second :
    ∃ b, (Breaker.fresh.serveAll sesquisecond [.failure .start]).2 = b ∧
      b.state sesquisecond ⟨500000000⟩ = .opened ∧
      b.canExecute sesquisecond (.after ⟨500000000⟩ (.ofSecs
        (b.status sesquisecond "h" ⟨500000000⟩).remainingSecs.toNat)) = .ok () := by
  obtain ⟨b, hb, hopen, hrest⟩ :
      ∃ b, (Breaker.fresh.serveAll sesquisecond [.failure .start]).2 = b ∧
        b.state sesquisecond ⟨500000000⟩ = .opened ∧
        (b.acquire sesquisecond ⟨500000000⟩).1 = .error (.ofSecs 1) :=
    ⟨_, rfl, by decide, rfl⟩
  obtain ⟨⟨rest, hrefused, -, hwait⟩, hordered⟩ :=
    told_wait_suffices_iff sesquisecond (by decide) [.failure .start] hb hopen "h"
  refine ⟨b, hb, hopen, hwait.mpr ⟨?_, (hordered (by decide)).1⟩⟩
  obtain rfl : (.ofSecs 1 : Duration) = rest := Except.error.inj (hrest.symm.trans hrefused)
  decide

/-- **The wait that is told may be too short**: right after the failure one second is told, and
after that second the circuit is still open for half a second. -/
theorem told_wait_too_short :
    ∃ b, (Breaker.fresh.serveAll sesquisecond [.failure .start]).2 = b ∧
      b.state sesquisecond .start = .opened ∧
      (b.status sesquisecond "h" .start).remainingSecs = 1 ∧
      b.canExecute sesquisecond (Instant.start.after (.ofSecs 1)) = .error (.ofMillis 500) :=
  ⟨_, rfl, by decide, by decide, rfl⟩

end Circuit

end RemoteShell
