import RemoteShell.Proofs.Elevation.Isolation
import RemoteShell.Proofs.Elevation.Quiescence
import RemoteShell.Proofs.Elevation.Renewal
import RemoteShell.Proofs.Elevation.Sights

/-!
# Forgetting is exact

What it comes to that the profiles of a host are forgotten, or all of them, while no call is under
way.  The logins that are forgotten have no profile any more, and their number is told; the next
call on one of them finds out everything anew.  On all others nothing has happened: no run can tell.

## Main results

* `Traffic.interchangeable_of_clear`: logins that are not forgotten
* `Traffic.afresh_of_clear`: logins that are forgotten
* `Traffic.clear_exact`: what all this comes to
-/

namespace RemoteShell.Elevation.Traffic

variable {settings : ElevationSettings} {k : Login} {host : Option String} {s t u : Traffic}
  {later : List Event}

/-- **Logins that are not forgotten** are as they were, whatever happens on the engine later. -/
theorem interchangeable_of_clear (hs : s.Sound Moves settings) (hrest : s.calls = [])
    (hstep : s.step (.clear host) = some t) (hk : ¬ (Event.clear host).Forgets k) :
    Interchangeable k s t ∧ Interchangeable k t s := by
  have ht := hs.step (fun _ => .start) (Moves.fulfils_ascend settings) hstep
  obtain rfl := Option.some.inj hstep
  have hfiled := Engine.filed_clear_of_kept (e := s.engine) hk
  have hthere : Mirrors _ k s { s with engine := (s.engine.clear host).2 } :=
    .of_rest hs hrest hrest rfl rfl hfiled rfl
  have hback : Mirrors _ k { s with engine := (s.engine.clear host).2 } s :=
    .of_rest ht hrest hrest rfl rfl hfiled.symm rfl
  exact ⟨hthere.interchangeable (.of_rest ht hrest hrest rfl rfl rfl rfl) hs ht,
    hback.interchangeable (.of_rest hs hrest hrest rfl rfl rfl rfl) ht hs⟩

/-- **Logins that are forgotten** are found out anew by the next call, whatever happens before it
comes. -/
theorem afresh_of_clear (hs : s.Sound Moves settings) (hrest : s.calls = [])
    (hstep : s.step (.clear host) = some t) (hk : (Event.clear host).Forgets k)
    (hrun : t.run later = some u)
    (hlater : ∀ id command timeout on, .call id k command timeout on ∉ later) :
    u.Afresh settings k := by
  have hall := Moves.fulfils_ascend settings
  have ht := hs.step (fun _ => .start) hall hstep
  obtain rfl := Option.some.inj hstep
  have howned : Owned { s with engine := (s.engine.clear host).2 } k none := by
    refine ⟨fun n hn => ?_, fun p hp => ?_⟩
    · exact absurd ((Engine.filed_clear_of_forgets hk).symm.trans hn) nofun
    · rw [show s.calls = [] from hrest] at hp
      cases hp
  exact (howned.run ht hlater hrun).afresh (ht.run (fun _ => .start) hall hrun)

/-- **Forgetting is exact.**  Let some calls have come to an end, none of them given up, and none be
under way, when the profiles of a host are forgotten, or all of them.

* The number that is told is that of the logins of the host, or of all logins, that had a profile.
* Nobody is asked or told anything else, so the vault is as it was.
* What is known of another login is known still.  Whatever happens on the engine from then on, the
  events on the other login could have happened as well if nothing had been forgotten, and the other
  way round; and wherever they do, all that there is of the login is the same: its profile, the
  calls on it, and what they ask, hear and end with.
* Of a login that is forgotten nothing is known, and the next call on it, whenever it comes, finds
  out everything anew: it probes the login, considers every method that the host offers, also those
  that failed before, and runs the command with a method only after the check of that method has
  passed, whether its password is stored or not. -/
theorem clear_exact {es : List Event} (hrun : (idle settings).run es = some s)
    (hes : ∀ id, .abandon id ∉ es) (hrest : s.calls = []) (host : Option String) :
    ∃ t, s.step (.clear host) = some t ∧
      (∃ ks : List Login, ks.Nodup ∧ (s.engine.clear host).1 = ks.length ∧
        ∀ k, k ∈ ks ↔ (Event.clear host).Forgets k ∧ s.engine.known k ≠ none) ∧
      (∀ company surveys, Scene.step ⟨s, company, surveys⟩ (.clear host) =
        some ⟨t, company, .forgotten (s.engine.clear host).1 :: surveys⟩) ∧
      (∀ k, ¬ (Event.clear host).Forgets k → t.engine.known k = s.engine.known k ∧
        Interchangeable k s t ∧ Interchangeable k t s) ∧
      ∀ k, (Event.clear host).Forgets k → t.engine.known k = none ∧
        (∀ later u, t.run later = some u →
          (∀ id command timeout on, .call id k command timeout on ∉ later) →
            u.Afresh settings k) ∧
        ∀ command timeout l x, (ascend settings k command timeout none).Path l x →
          Anew settings k command timeout l x := by
  have hs : s.Sound Moves settings :=
    Sound.idle.run (fun _ => .start) (Moves.fulfils_ascend settings) hrun
  have htended : s.Tended :=
    (Tended.idle settings).run (s := idle settings) .empty Sound.idle hes hrun
  refine ⟨{ s with engine := (s.engine.clear host).2 }, rfl, htended.count_clear hrest host,
    fun company surveys => rfl, fun k hk => ⟨?_, ?_⟩, fun k hk => ⟨?_, ?_, ?_⟩⟩
  · exact (s.engine.known_clear host k).2 hk
  · exact interchangeable_of_clear hs hrest rfl hk
  · exact (s.engine.known_clear host k).1 hk
  · exact fun later u hlater => afresh_of_clear hs hrest rfl hk hlater
  · exact fun command timeout l x => anew_of_path

/-- Two calls on a login for which `sudo` rejects the password, and one on another host by the
superuser. -/
def threeCalls : List Event :=
  wrongPassword ++ [.answer 0 (.replied (.ok ⟨"ann\n", "", 0⟩)), .answer 0 .done,
    .answer 1 .admitted, .call 2 ⟨"root", "b", 22⟩ "ls" (.ofSecs 60) none,
    .answer 2 (.replied (.ok ⟨"root\n", "", 0⟩)), .answer 2 (.replied (.ok ⟨"", "", 0⟩))]

/-- The login with the failed method is forgotten, and the superuser on the other host does not
notice. -/
theorem clear_exact_of_threeCalls :
    ∃ s t, (idle ⟨.ofSecs 30, .ofSecs 15⟩).run threeCalls = some s ∧ s.calls = [] ∧
      s.step (.clear (some "a")) = some t ∧ (s.engine.clear (some "a")).1 = 1 ∧
      (s.engine.known ⟨"ann", "a", 22⟩).map Profile.failed = some [.sudoPassword] ∧
      t.engine.known ⟨"ann", "a", 22⟩ = none ∧
      t.Afresh ⟨.ofSecs 30, .ofSecs 15⟩ ⟨"ann", "a", 22⟩ ∧
      (t.engine.known ⟨"root", "b", 22⟩).map Profile.isRoot = some true ∧
      Interchangeable ⟨"root", "b", 22⟩ s t := by
  have hfacts : ((idle ⟨.ofSecs 30, .ofSecs 15⟩).run threeCalls).map (fun s =>
      (s.calls.isEmpty, (s.engine.clear (some "a")).1,
        (s.engine.known ⟨"ann", "a", 22⟩).map Profile.failed,
        (s.engine.known ⟨"root", "b", 22⟩).map Profile.isRoot)) =
      some (true, 1, some [.sudoPassword], some true) := by rfl
  obtain ⟨s, hrun, hfacts⟩ := Option.map_eq_some_iff.mp hfacts
  simp only [Prod.mk.injEq] at hfacts
  obtain ⟨hempty, hcount, hfailed, hroot⟩ := hfacts
  obtain ⟨t, hstep, -, -, hkept, hforgotten⟩ := clear_exact hrun
    (by simp [threeCalls, wrongPassword]) (List.isEmpty_iff.mp hempty) (some "a")
  obtain ⟨hknown, hunnoticed, -⟩ := hkept ⟨"root", "b", 22⟩ (by simp [Event.Forgets])
  obtain ⟨hnothing, hafresh, -⟩ := hforgotten ⟨"ann", "a", 22⟩ (by simp [Event.Forgets])
  exact ⟨s, t, hrun, List.isEmpty_iff.mp hempty, hstep, hcount, hfailed, hnothing,
    hafresh [] t rfl (by simp), hknown ▸ hroot, hunnoticed⟩

end RemoteShell.Elevation.Traffic
