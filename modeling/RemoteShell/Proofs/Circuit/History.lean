import RemoteShell.Circuit.Breaker

/-!
# A breaker and its history

A breaker stores a counter and two instants.  This module says what the answers of a breaker mean
without these fields: everything is read off the list of the calls that were made on it, the latest
first.  The failures since the latest success or reset are counted, the latest of them starts the
cool-down, and the probe is the latest call since then that was let through behind a half-open
circuit.

The three fields are shown to encode the history after any calls, at any instants: clocks may go
backwards, failures may arrive while the circuit is open or half open, the counter may be full, and
the threshold may be zero.

## Main definitions

* `Call`, `Reply`, `Breaker.serve`, `Breaker.serveAll`: the calls on a breaker and what they answer
* `History.failures`, `History.lastFailure?`, `History.probe?`: what the history is read for
* `History.state`, `History.gate`, `History.answer`: the answers, from the history alone
* `Breaker.Encodes`: the fields of a breaker encode a history

## Main results

* `Breaker.Encodes.serve`: a call answers as the history says, and the encoding is kept
* `replies_eq_answers`: the replies to any calls are the answers read off the history
-/

namespace RemoteShell.Circuit

/-- A call on a breaker. -/
inductive Call where
  | failure (now : Instant)
  | success
  | reset
  | acquire (now : Instant)
  | canExecute (now : Instant)
  | state (now : Instant)
  | status (host : String) (now : Instant)
  deriving DecidableEq, Repr

/-- What a call on a breaker answers. -/
inductive Reply where
  | nothing
  | gate (r : Except Duration Unit)
  | state (s : State)
  | status (s : Status)

namespace Call

/-- Does the call make the breaker forget its failures? -/
def clears : Call → Bool
  | .success | .reset => true
  | _ => false

/-- The instant of a failure. -/
def failedAt? : Call → Option Instant
  | .failure now => some now
  | _ => none

/-- Does the call only ask? -/
def asks : Call → Bool
  | .canExecute _ | .state _ | .status .. => true
  | _ => false

end Call

namespace Breaker

/-- A breaker serves a call. -/
def serve (p : Policy) (b : Breaker) : Call → Reply × Breaker
  | .failure now => (.nothing, b.failure p now)
  -- A reset does what a success does.
  | .success | .reset => (.nothing, b.success)
  | .acquire now => ((b.acquire p now).map .gate id)
  | .canExecute now => (.gate (b.canExecute p now), b)
  | .state now => (.state (b.state p now), b)
  | .status host now => (.status (b.status p host now), b)

/-- A breaker serves calls in order. -/
def serveAll (p : Policy) (b : Breaker) : List Call → List Reply × Breaker
  | [] => ([], b)
  | c :: cs =>
    let (r, b) := b.serve p c
    let (rs, b) := serveAll p b cs
    (r :: rs, b)

end Breaker

/-! ## What the history says

A history is the list of the calls so far, the latest first. -/

namespace History

/-- The calls since the latest success or reset. -/
def sinceClear (past : List Call) : List Call := past.takeWhile fun c => !c.clears

/-- The number of failures since the latest success or reset. -/
def failures (past : List Call) : Nat := (sinceClear past).countP fun c => c.failedAt?.isSome

/-- The instant of the latest of these failures. -/
def lastFailure? (past : List Call) : Option Instant := (sinceClear past).findSome? Call.failedAt?

/-- How many failures open the circuit: at least one, whatever the threshold. -/
def needed (p : Policy) : Nat := max 1 p.threshold.toNat

/-- The state at an instant. -/
def state (p : Policy) (past : List Call) (now : Instant) : State :=
  if failures past < needed p then .closed
  else if (lastFailure? past).any fun t => now.since t < p.cooldown then .opened
  else .halfOpen

/-- The rest of the cool-down at an instant. -/
def remaining (p : Policy) (past : List Call) (now : Instant) : Duration :=
  ((lastFailure? past).map fun t => p.cooldown.minus (now.since t)).getD .zero

/-- **The probe** of a history: the instant of the latest call since the latest failure that was let
through while the circuit was half open. -/
def probe? (p : Policy) : List Call → Option Instant
  | [] => none
  | .acquire now :: past =>
    let before := probe? p past
    if state p past now = .halfOpen ∧ before.all fun t => p.cooldown ≤ now.since t then some now
    else before
  | c :: past => if c.clears || c.failedAt?.isSome then none else probe? p past

/-- May a call go ahead at an instant?  If not, the time until one may. -/
def gate (p : Policy) (past : List Call) (now : Instant) : Except Duration Unit :=
  match state p past now with
  | .closed => .ok ()
  | .opened => .error (remaining p past now)
  | .halfOpen =>
    if (probe? p past).all fun t => p.cooldown ≤ now.since t then .ok () else .error .zero

/-- What operators see at an instant. -/
def status (p : Policy) (past : List Call) (host : String) (now : Instant) : Status where
  host := host
  state := state p past now
  failures := .ofNat (min (failures past) (UInt32.size - 1))
  remainingSecs :=
    if state p past now = .opened then .ofNat (remaining p past now).secs else 0

/-- What a call answers after a history. -/
def answer (p : Policy) (past : List Call) : Call → Reply
  | .failure _ | .success | .reset => .nothing
  | .acquire now | .canExecute now => .gate (gate p past now)
  | .state now => .state (state p past now)
  | .status host now => .status (status p past host now)

/-- What calls answer in order after a history. -/
def answers (p : Policy) (past : List Call) : List Call → List Reply
  | [] => []
  | c :: cs => answer p past c :: answers p (c :: past) cs

variable {p : Policy} {past : List Call} {c : Call} {t now : Instant}

theorem sinceClear_of_clears (h : c.clears) : sinceClear (c :: past) = [] := by
  simp [sinceClear, h]

theorem sinceClear_of_keeps (h : c.clears = false) :
    sinceClear (c :: past) = c :: sinceClear past := by
  simp [sinceClear, h]

@[simp] theorem failures_nil : failures [] = 0 := rfl

@[simp] theorem failures_failure :
    failures (.failure now :: past) = failures past + 1 := by
  rw [failures, sinceClear_of_keeps rfl, List.countP_cons_of_pos rfl, failures]

@[simp] theorem lastFailure?_failure : lastFailure? (.failure now :: past) = some now := by
  rw [lastFailure?, sinceClear_of_keeps rfl, List.findSome?_cons_of_isSome rfl]
  rfl

theorem failures_of_clears (h : c.clears) : failures (c :: past) = 0 := by
  rw [failures, sinceClear_of_clears h, List.countP_nil]

theorem failures_of_other (hc : c.clears = false) (hf : c.failedAt? = none) :
    failures (c :: past) = failures past := by
  rw [failures, sinceClear_of_keeps hc, List.countP_cons_of_neg (by simp [hf]), failures]

theorem lastFailure?_of_other (hc : c.clears = false) (hf : c.failedAt? = none) :
    lastFailure? (c :: past) = lastFailure? past := by
  rw [lastFailure?, sinceClear_of_keeps hc, List.findSome?_cons_of_isNone (by simp [hf]),
    lastFailure?]

/-- There is a latest failure as soon as there is one at all. -/
theorem exists_lastFailure (h : 0 < failures past) : ∃ t, lastFailure? past = some t := by
  rw [failures, List.countP_pos_iff] at h
  obtain ⟨c, hc, hf⟩ := h
  have : (lastFailure? past).isSome := List.findSome?_isSome_iff.mpr ⟨c, hc, hf⟩
  exact Option.isSome_iff_exists.mp this

theorem one_le_needed (p : Policy) : 1 ≤ needed p := Nat.le_max_left 1 _

/-- Behind a circuit that is not closed there is a latest failure. -/
theorem exists_lastFailure_of_needed (h : needed p ≤ failures past) :
    ∃ t, lastFailure? past = some t :=
  exists_lastFailure (Nat.lt_of_lt_of_le (one_le_needed p) h)

end History

/-! ## The encoding -/

/-- **The fields of a breaker encode a history**: the counter holds the failures as far as it can,
the circuit is open or half open since the latest failure if there were enough of them, and the
probe is the probe. -/
structure Breaker.Encodes (p : Policy) (b : Breaker) (past : List Call) : Prop where
  failures : b.failures.toNat = min (History.failures past) (UInt32.size - 1)
  openedAt : b.openedAt =
    if History.failures past < History.needed p then none else History.lastFailure? past
  probeAt : b.probeAt = History.probe? p past

theorem countUp_toNat (n : UInt32) :
    (Breaker.countUp n).toNat = min (n.toNat + 1) (UInt32.size - 1) := by
  have hn : n.toNat < UInt32.size := n.toNat_lt
  unfold Breaker.countUp
  split
  · next h => subst h; rfl
  · next h =>
    have hne : n.toNat ≠ UInt32.size - 1 := fun e => h (UInt32.toNat_inj.mp e)
    rw [UInt32.toNat_add, UInt32.toNat_one]
    simp only [UInt32.size] at *
    omega

namespace Breaker.Encodes

variable {p : Policy} {b : Breaker} {past : List Call}

/-- A new breaker encodes the empty history. -/
protected theorem fresh (p : Policy) : Encodes p .fresh [] where
  failures := rfl
  openedAt := by simp [Breaker.fresh, Nat.lt_of_lt_of_le Nat.zero_lt_one (History.one_le_needed p)]
  probeAt := rfl

/-! ### What an encoding answers -/

theorem state_eq (h : Encodes p b past) (now : Instant) :
    b.state p now = History.state p past now := by
  unfold Breaker.state History.state
  rw [h.openedAt]
  by_cases hn : History.failures past < History.needed p
  · simp [hn]
  · obtain ⟨t, ht⟩ := History.exists_lastFailure_of_needed (Nat.le_of_not_lt hn)
    simp [hn, ht]

/-- Only behind an open circuit does it matter how long there is to wait. -/
theorem remaining_eq (h : Encodes p b past) (now : Instant)
    (ho : History.state p past now ≠ .closed) :
    b.remaining p now = History.remaining p past now := by
  unfold Breaker.remaining History.remaining
  rw [h.openedAt]
  have hn : ¬ History.failures past < History.needed p := fun hn => ho (by simp [History.state, hn])
  obtain ⟨t, ht⟩ := History.exists_lastFailure_of_needed (Nat.le_of_not_lt hn)
  simp [hn, ht]

theorem not_probing_iff (h : Encodes p b past) (now : Instant) :
    b.probing p now = false ↔
      (History.probe? p past).all (fun t => p.cooldown ≤ now.since t) = true := by
  rw [Breaker.probing, h.probeAt]
  cases History.probe? p past <;> simp [Duration.lt_def, Duration.le_def]

theorem gate_eq (h : Encodes p b past) (now : Instant) :
    b.canExecute p now = History.gate p past now := by
  unfold Breaker.canExecute History.gate
  rw [h.state_eq]
  cases hs : History.state p past now with
  | closed => rfl
  | opened => simp only [h.remaining_eq now (by simp [hs])]
  | halfOpen =>
    by_cases hp : b.probing p now = false
    · simp [hp, (h.not_probing_iff now).mp hp]
    · have := mt (h.not_probing_iff now).mpr hp
      simp_all

theorem status_eq (h : Encodes p b past) (host : String) (now : Instant) :
    b.status p host now = History.status p past host now := by
  have hf : b.failures = .ofNat (min (History.failures past) (UInt32.size - 1)) := by
    rw [← h.failures, UInt32.ofNat_toNat]
  unfold Breaker.status History.status
  rw [h.state_eq, hf]
  cases hs : History.state p past now with
  | closed => rfl
  | opened => simp [h.remaining_eq now (by simp [hs])]
  | halfOpen => rfl

/-! ### What calls do to an encoding -/

theorem isSome_openedAt_iff (h : Encodes p b past) :
    b.openedAt.isSome ↔ History.needed p ≤ History.failures past := by
  rw [h.openedAt]
  by_cases hn : History.failures past < History.needed p
  · simp [hn]
  · obtain ⟨t, ht⟩ := History.exists_lastFailure_of_needed (Nat.le_of_not_lt hn)
    simp [hn, ht, Nat.le_of_not_lt hn]

/-- A full counter still reaches every threshold. -/
theorem threshold_le_countUp_iff (h : Encodes p b past) :
    p.threshold ≤ countUp b.failures ↔ p.threshold.toNat ≤ History.failures past + 1 := by
  have ht : p.threshold.toNat < UInt32.size := p.threshold.toNat_lt
  rw [UInt32.le_iff_toNat_le, countUp_toNat, h.failures]
  omega

theorem failure (h : Encodes p b past) (now : Instant) :
    Encodes p (b.failure p now) (.failure now :: past) where
  failures := by
    simp only [Breaker.failure, countUp_toNat, h.failures, History.failures_failure]
    omega
  openedAt := by
    have hopen : (b.openedAt.isSome ∨ p.threshold ≤ countUp b.failures) ↔
        ¬ History.failures past + 1 < History.needed p := by
      rw [h.isSome_openedAt_iff, h.threshold_le_countUp_iff, History.needed]
      omega
    simp only [Breaker.failure, History.failures_failure, History.lastFailure?_failure, hopen,
      ite_not]
  probeAt := by simp [Breaker.failure, History.probe?, Call.clears, Call.failedAt?]

theorem clear (b : Breaker) (past : List Call) {c : Call} (hc : c.clears) :
    Encodes p b.success (c :: past) where
  failures := by rw [History.failures_of_clears hc]; rfl
  openedAt := by
    have hn : 0 < History.needed p := History.one_le_needed p
    simp [History.failures_of_clears hc, Breaker.success, Breaker.fresh, hn]
  probeAt := by
    cases c with
    | success => rfl
    | reset => rfl
    | _ => simp [Call.clears] at hc

/-- A call that is neither a failure nor a success changes at most the probe. -/
theorem of_probeAt (h : Encodes p b past) {c : Call} (hc : c.clears = false)
    (hf : c.failedAt? = none) {probe : Option Instant}
    (hp : probe = History.probe? p (c :: past)) :
    Encodes p { b with probeAt := probe } (c :: past) where
  failures := by rw [History.failures_of_other hc hf]; exact h.failures
  openedAt := by
    rw [History.failures_of_other hc hf, History.lastFailure?_of_other hc hf]
    exact h.openedAt
  probeAt := hp

theorem ask (h : Encodes p b past) {c : Call} (ha : c.asks) : Encodes p b (c :: past) := by
  cases c with
  | canExecute now => exact h.of_probeAt rfl rfl h.probeAt
  | state now => exact h.of_probeAt rfl rfl h.probeAt
  | status host now => exact h.of_probeAt rfl rfl h.probeAt
  | _ => simp [Call.asks] at ha

/-- A call that is let through behind a half-open circuit becomes the probe; any other call changes
nothing. -/
theorem acquire (h : Encodes p b past) (now : Instant) :
    Encodes p (b.acquire p now).2 (.acquire now :: past) := by
  have keep (hp : History.probe? p (.acquire now :: past) = History.probe? p past) :
      Encodes p b (.acquire now :: past) :=
    h.of_probeAt rfl rfl (h.probeAt.trans hp.symm)
  unfold Breaker.acquire
  rw [h.gate_eq, h.state_eq, History.gate]
  cases hs : History.state p past now with
  | closed => exact keep (by simp [History.probe?, hs])
  | opened => exact keep (by simp [History.probe?, hs])
  | halfOpen =>
    by_cases hp : (History.probe? p past).all fun t => p.cooldown ≤ now.since t
    · simp only [hp, if_true]
      exact h.of_probeAt rfl rfl (by simp [History.probe?, hs, hp])
    · simp only [hp]
      exact keep (by simp [History.probe?, hp])

/-! ### One call and many -/

/-- **A call answers as the history says**, and the breaker goes on to encode the history. -/
theorem serve (h : Encodes p b past) (c : Call) :
    (b.serve p c).1 = History.answer p past c ∧ Encodes p (b.serve p c).2 (c :: past) := by
  cases c with
  | failure now => exact ⟨rfl, h.failure now⟩
  | success => exact ⟨rfl, .clear b past rfl⟩
  | reset => exact ⟨rfl, .clear b past rfl⟩
  | acquire now =>
    refine ⟨?_, h.acquire now⟩
    have hgate : (b.acquire p now).1 = b.canExecute p now := by
      unfold Breaker.acquire
      cases b.canExecute p now <;> rfl
    simp only [Breaker.serve, Prod.map, History.answer, hgate, h.gate_eq]
  | canExecute now => exact ⟨congrArg Reply.gate (h.gate_eq now), h.ask rfl⟩
  | state now => exact ⟨congrArg Reply.state (h.state_eq now), h.ask rfl⟩
  | status host now => exact ⟨congrArg Reply.status (h.status_eq host now), h.ask rfl⟩

theorem serveAll (h : Encodes p b past) (cs : List Call) :
    (b.serveAll p cs).1 = History.answers p past cs ∧
      Encodes p (b.serveAll p cs).2 (cs.reverse ++ past) := by
  induction cs generalizing b past with
  | nil => exact ⟨rfl, h⟩
  | cons c cs ih =>
    obtain ⟨hr, hb⟩ := h.serve c
    obtain ⟨hrs, hbs⟩ := ih hb
    refine ⟨?_, ?_⟩
    · simp only [Breaker.serveAll, History.answers, hr, hrs]
    · simpa [Breaker.serveAll] using hbs

end Breaker.Encodes

/-- A call that only asks changes nothing. -/
theorem serve_snd_of_asks (p : Policy) (b : Breaker) {c : Call} (h : c.asks) :
    (b.serve p c).2 = b := by
  cases c with
  | canExecute now => rfl
  | state now => rfl
  | status host now => rfl
  | _ => simp [Call.asks] at h

/-- **The replies to any calls on a new breaker are the answers read off the history**, its counter
holds the failures since the latest success or reset as far as 32 bits can, and calls that only ask
leave the breaker as it is. -/
theorem replies_eq_answers (p : Policy) (cs : List Call) :
    (Breaker.fresh.serveAll p cs).1 = History.answers p [] cs ∧
      (Breaker.fresh.serveAll p cs).2.failures.toNat =
        min (History.failures cs.reverse) (UInt32.size - 1) ∧
      ∀ c : Call, c.asks →
        ((Breaker.fresh.serveAll p cs).2.serve p c).2 = (Breaker.fresh.serveAll p cs).2 := by
  obtain ⟨hr, hb⟩ := (Breaker.Encodes.fresh p).serveAll cs
  rw [List.append_nil] at hb
  exact ⟨hr, hb.failures, fun c hc => serve_snd_of_asks p _ hc⟩

end RemoteShell.Circuit
