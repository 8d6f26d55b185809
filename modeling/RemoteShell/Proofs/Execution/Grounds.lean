import RemoteShell.Proofs.Circuit.Replies
import RemoteShell.Proofs.Execution.Turns

/-!
# Reasons to refuse a command

A command may be refused for several reasons, and they are looked at in an order: the command, the
target, the jump host, the time limit, the caller, and last the circuit of the host.  The first
reason that there is decides.  Above all a command that is refused for another reason does not come
to the circuit, so it cannot take the place of a probe.

## Main definitions

* `Ground`, `Ground.holds`, `Ground.fault`: the reasons to refuse a command
* `Ground.first?`: the first reason that there is

## Main results

* `refusal_eq`, `acquire_eq`: what the command itself and the circuit decide
* `admits_iff`, `start_of_ground`: the first reason decides
-/

namespace RemoteShell

open Circuit (Registry)

namespace Execution

/-- A reason to refuse a command. -/
inductive Ground where
  | blankCommand
  | blankHost
  | portZero
  | blankHop
  | hopPortZero
  | noTime
  | cancelled
  -- The circuit of the host is open, or half open and a probe is under way.
  | circuit
  deriving DecidableEq, Repr

namespace Ground

/-- The reasons that are found in a target, in order. -/
def ofTarget : List Ground := [.blankHost, .portZero, .blankHop, .hopPortZero]

/-- The reasons that are found in the command and its caller, in order. -/
def own : List Ground := .blankCommand :: (ofTarget ++ [.noTime, .cancelled])

/-- **There is a reason** to refuse a command. -/
def holds (h : Hub) (t : Task) (cancelled : Bool) (now : Instant) : Ground → Bool
  | .blankCommand => Text.isBlankText t.command
  | .blankHost => Text.isBlankText t.target.host
  | .portZero => t.target.port = 0
  | .blankHop => t.target.hop.any fun hop => Text.isBlankText hop.host
  | .hopPortZero => t.target.hop.any fun hop => hop.port = 0
  | .noTime => t.timeout = .zero
  | .cancelled => cancelled
  | .circuit => (h.circuits.breaker t.target.host).refuses h.circuits.policy now

/-- **What a refused command is told.** -/
def fault (h : Hub) (t : Task) (now : Instant) : Ground → Fault
  | .blankCommand => .invalidInput "command cannot be empty"
  | .blankHost => .invalidInput "host cannot be empty"
  | .portZero => .invalidInput "port 0 out of range 1-65535"
  | .blankHop => .invalidInput "jump host cannot be empty"
  | .hopPortZero => .invalidInput "port 0 out of range 1-65535"
  | .noTime => .invalidInput "timeout must be greater than zero"
  | .cancelled => .cancelled
  | .circuit => .circuitOpen t.target.host
      ((h.circuits.breaker t.target.host).remaining h.circuits.policy now)

/-- **The first reason** that there is. -/
def first? (h : Hub) (t : Task) (cancelled : Bool) (now : Instant) : Option Ground :=
  (own ++ [Ground.circuit]).find? (holds h t cancelled now)

end Ground

/-! ## The first reason decides -/

/-- A port fails its check only if it is zero. -/
theorem checkPort_eq (port : UInt16) :
    checkPort port.toNat = if port = 0 then .error (.invalidInput "port 0 out of range 1-65535")
      else .ok port := by
  unfold checkPort
  by_cases hport : port = 0
  · subst hport
    rfl
  · have hpos : 1 ≤ port.toNat := by
      rcases Nat.eq_zero_or_pos port.toNat with hzero | hpos
      · exact absurd (UInt16.toNat_inj.mp hzero) hport
      · exact hpos
    have hlt : port.toNat ≤ 65535 := Nat.le_of_lt_succ port.toNat_lt
    rw [if_pos ⟨hpos, hlt⟩, if_neg hport, UInt16.ofNat_toNat]

/-- What the first reason of a list makes of a command. -/
def decides (h : Hub) (t : Task) (cancelled : Bool) (now : Instant) (gs : List Ground) :
    Except Fault Unit :=
  match gs.find? (Ground.holds h t cancelled now) with
  | some g => .error (g.fault h t now)
  | none => .ok ()

theorem decides_cons (h : Hub) (t : Task) (cancelled : Bool) (now : Instant) (g : Ground)
    (gs : List Ground) : decides h t cancelled now (g :: gs) =
      if g.holds h t cancelled now then .error (g.fault h t now)
      else decides h t cancelled now gs := by
  unfold decides
  rw [List.find?_cons]
  cases g.holds h t cancelled now <;> rfl

theorem decides_append (h : Hub) (t : Task) (cancelled : Bool) (now : Instant)
    (gs gs' : List Ground) : decides h t cancelled now (gs ++ gs') =
      (decides h t cancelled now gs).bind fun _ => decides h t cancelled now gs' := by
  induction gs with
  | nil => rfl
  | cons g gs ih =>
    rw [List.cons_append, decides_cons, decides_cons, ih]
    cases g.holds h t cancelled now <;> rfl

/-- **What is wrong with a target** is looked for in order, on the target before its jump host. -/
theorem validate_eq (h : Hub) (t : Task) (cancelled : Bool) (now : Instant) :
    t.target.validate = decides h t cancelled now Ground.ofTarget := by
  obtain ⟨⟨host, port, user, keyPath, hop⟩, command, timeout, elevate, retry⟩ := t
  simp only [Ground.ofTarget, decides_cons, Target.validate, checkPort_eq, Ground.holds,
    Ground.fault]
  -- The checks stop at the first fault: each is opened behind those that have passed.
  cases Text.isBlankText host with
  | true => rfl
  | false =>
    by_cases hport : port = 0
    · subst hport
      rfl
    · simp only [hport, if_false, decide_false]
      cases hop with
      | none => rfl
      | some hop =>
        simp only [Option.any_some]
        cases Text.isBlankText hop.host with
        | true => rfl
        | false =>
          by_cases hhop : hop.port = 0
          · simp only [hhop, if_true, decide_true]
            rfl
          · simp only [hhop, if_false, decide_false]
            rfl

/-- **What is wrong with a command in itself** is looked for in order. -/
theorem refusal_eq (h : Hub) (t : Task) (cancelled : Bool) (now : Instant) :
    refusal t cancelled = decides h t cancelled now Ground.own := by
  have htime : t.timeout.isZero = decide (t.timeout = .zero) := by
    generalize t.timeout = timeout
    obtain ⟨nanos⟩ := timeout
    cases nanos <;> rfl
  rw [Ground.own, decides_cons, decides_append, ← validate_eq]
  simp only [decides_cons, refusal, htime, Ground.holds, Ground.fault]
  cases Text.isBlankText t.command
  · cases t.target.validate with
    | error f => rfl
    | ok u =>
      by_cases hzero : t.timeout = .zero
      · simp [hzero]
        rfl
      · cases cancelled <;> simp [hzero] <;> rfl
  · rfl

/-- What is refused before anything is touched is wrong in itself, or cancelled. -/
theorem refusal_error {t : Task} {cancelled : Bool} {f : Fault} (h : Hub) (now : Instant)
    (href : refusal t cancelled = .error f) : f.kind = .invalidInput ∨ f.kind = .cancelled := by
  rw [refusal_eq h t cancelled now, decides] at href
  split at href
  · next g hfirst =>
    cases href
    have hg := List.mem_of_find?_eq_some hfirst
    cases g with
    | cancelled => exact .inr rfl
    | circuit => simp [Ground.own, Ground.ofTarget] at hg
    | _ => exact .inl rfl
  · cases href

/-- What a command is told at the circuit of its host. -/
theorem acquire_eq (h : Hub) (t : Task) (cancelled : Bool) (now : Instant) :
    (h.circuits.acquire t.target.host now).1 = decides h t cancelled now [.circuit] := by
  rw [Registry.acquire_fst_eq, decides_cons]
  rfl

/-- The reasons in the command and its caller come before the one of the circuit. -/
theorem first?_eq_some_iff {h : Hub} {t : Task} {cancelled : Bool} {now : Instant} {g : Ground} :
    Ground.first? h t cancelled now = some g ↔
      Ground.own.find? (Ground.holds h t cancelled now) = some g ∨
        Ground.own.find? (Ground.holds h t cancelled now) = none ∧
          g = .circuit ∧ Ground.circuit.holds h t cancelled now = true := by
  rw [Ground.first?, List.find?_append]
  cases Ground.own.find? (Ground.holds h t cancelled now) with
  | some g' => simp
  | none =>
    rw [Option.none_or, List.find?_singleton]
    cases Ground.circuit.holds h t cancelled now <;> simp [eq_comm]

/-- **A command is admitted** if there is no reason to refuse it. -/
theorem admits_iff {h : Hub} {t : Task} {cancelled : Bool} {now : Instant} :
    h.admits t cancelled now = true ↔ Ground.first? h t cancelled now = none := by
  rw [Hub.admits, refusal_eq h t cancelled now, acquire_eq h t cancelled now, Ground.first?,
    List.find?_append, decides, decides]
  cases Ground.own.find? (Ground.holds h t cancelled now) with
  | some g => simp [Except.isOk, Except.toBool]
  | none =>
    cases [Ground.circuit].find? (Ground.holds h t cancelled now) <;>
      simp [Except.isOk, Except.toBool]

/-- **The first reason decides**: the command ends at once, and the circuits are as good as
unchanged. -/
theorem start_of_ground {h : Hub} {t : Task} {cancelled : Bool} {now : Instant} {g : Ground}
    (hg : Ground.first? h t cancelled now = some g) (id : CallId) :
    ∃ circuits, h.circuits.Alike circuits ∧
      start id t cancelled now h =
        ({ h with circuits := circuits }, .ends (.finished (.error (g.fault h t now)))) := by
  rcases first?_eq_some_iff.mp hg with hown | ⟨hown, rfl, hcircuit⟩
  · refine ⟨h.circuits, .refl _, ?_⟩
    rw [start, refusal_eq h t cancelled now, decides, hown]
  · -- The circuit was asked, but a refusal is no probe.
    refine ⟨(h.circuits.acquire t.target.host now).2, Registry.alike_of_refused hcircuit, ?_⟩
    have hgate := acquire_eq h t cancelled now
    rw [decides_cons, if_pos hcircuit] at hgate
    rw [start, refusal_eq h t cancelled now, decides, hown]
    generalize h.circuits.acquire t.target.host now = acquired at hgate ⊢
    obtain ⟨answer, circuits⟩ := acquired
    cases hgate
    rfl

end Execution

end RemoteShell
