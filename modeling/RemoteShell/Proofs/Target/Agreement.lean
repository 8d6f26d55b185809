import RemoteShell.Proofs.Target.Grammar
import RemoteShell.Tool

/-!
# The reading and the check of jump hosts

A jump host is checked twice, when it is read and when the target that it belongs to is checked
before a connection.  The reading trims the whole text and asks for a host that is not empty; the
check trims the host.  The two agree on every text but those whose host consists of blanks, which
can only stand between a user and a port: there the reading accepts what the check refuses.

## Main definitions

* `Hop.BlankHost`: blanks stand where the host belongs, between a user and a port

## Main results

* `isBlankText_host_iff`: the host that is read is blank just in these texts
* `target_cases`: what the target of a command has from its arguments
* `validate_of_parse`: what is read passes the check, unless its host is blank
-/

namespace RemoteShell

open Text (isBlank isBlankText splitLast? trimmed)

namespace Text

theorem isBlankText_iff {s : String} : isBlankText s = true ↔ ∀ c ∈ s.toList, isBlank c = true := by
  rw [isBlankText, List.isEmpty_iff, trimmed_eq_nil_iff]

end Text

theorem ofNat_ne_zero {n : Nat} (hrange : 1 ≤ n ∧ n ≤ 65535) : UInt16.ofNat n ≠ 0 := by
  intro hzero
  have hvalue := congrArg UInt16.toNat hzero
  rw [UInt16.toNat_ofNat_of_lt' (Nat.lt_succ_of_le hrange.2)] at hvalue
  exact Nat.ne_of_gt hrange.1 hvalue

namespace Hop

variable {value defaultUser : String} {s host : List Char} {port : UInt16} {j : Hop}

/-- **The host is blank**: between the last `@` and the last colon stand blanks and nothing
else. -/
def BlankHost (value : String) : Prop :=
  ∃ u h p, trimmed value.toList = u ++ '@' :: (h ++ ':' :: p) ∧ '@' ∉ p ∧ ':' ∉ p ∧
    ∀ c ∈ h, isBlank c = true

theorem Address.port_ne_zero (h : Address s host port) : port ≠ 0 := by
  cases h with
  | bare => decide
  | withPort _ hrange => exact ofNat_ne_zero hrange

/-- A host stands in front of its port. -/
theorem Address.isPrefix (h : Address s host port) : host <+: s := by
  cases h with
  | bare => exact List.prefix_rfl
  | withPort => exact List.prefix_append _ _

/-- The port that is read is a port. -/
theorem Spells.port_ne_zero (h : Spells defaultUser s j) : j.port ≠ 0 := by
  cases h with
  | alone ha => exact ha.port_ne_zero
  | byUser _ ha => exact ha.port_ne_zero

/-- Where the text neither begins nor ends with a blank, a host of blanks has a user in front of it
and a port behind it. -/
theorem Spells.blank_host (h : Spells defaultUser s j)
    (hfirst : ∀ c, s.head? = some c → isBlank c = false)
    (hlast : ∀ c, s.getLast? = some c → isBlank c = false)
    (hblank : ∀ c ∈ j.host.toList, isBlank c = true) :
    ∃ u h p, s = u ++ '@' :: (h ++ ':' :: p) ∧ '@' ∉ p ∧ ':' ∉ p ∧
      ∀ c ∈ h, isBlank c = true := by
  cases h with
  | @alone _ h _ ha hne hat =>
    rw [String.toList_ofList] at hblank
    have hhead : s.head? = some (h.head hne) := by
      obtain ⟨rest, rfl⟩ := ha.isPrefix
      rw [List.head?_append_of_ne_nil _ hne, List.head?_eq_some_head hne]
    have hvisible := hfirst _ hhead
    rw [hblank _ (List.head_mem hne)] at hvisible
    cases hvisible
  | @byUser u a h _ hu ha hne hat =>
    rw [String.toList_ofList] at hblank
    cases ha with
    | bare hcolon =>
      have htail : (u ++ '@' :: a).getLast? = some (a.getLast hne) := by
        rw [List.append_cons, List.getLast?_append_of_ne_nil _ hne,
          List.getLast?_eq_some_getLast hne]
      have hvisible := hlast _ htail
      rw [hblank _ (List.getLast_mem hne)] at hvisible
      cases hvisible
    | @withPort _ p n hn hrange =>
      exact ⟨u, h, p, rfl, Text.notMem_of_numeral hn (by decide) (by decide),
        Text.notMem_of_numeral hn (by decide) (by decide), hblank⟩

/-- Read from the right, a text has only one host between a user and a port. -/
theorem Spells.host_eq {u h p : List Char} (hspells : Spells defaultUser s j)
    (hs : s = u ++ '@' :: (h ++ ':' :: p)) (hath : '@' ∉ h) (hatp : '@' ∉ p) (hcolon : ':' ∉ p) :
    j.host = String.ofList h := by
  have hat : '@' ∉ h ++ ':' :: p := by simp [hath, hatp]
  cases hspells with
  | alone ha hne hhost =>
    exact absurd (ha.at_notMem_iff.mpr hhost) (by simp [hs])
  | @byUser u' a h' _ hu ha hne hhost =>
    obtain ⟨-, hrest⟩ := Text.append_sep_inj (ha.at_notMem_iff.mpr hhost) hat hs
    cases ha with
    | bare hnone => exact absurd hnone (by simp [hrest])
    | @withPort _ p' n hn =>
      have hcolon' : ':' ∉ p' := Text.notMem_of_numeral hn (by decide) (by decide)
      rw [(Text.append_sep_inj hcolon' hcolon hrest).1]

/-- **The host that is read** is blank just if blanks stand between the user and the port: those
at the ends of the text have been trimmed away. -/
theorem isBlankText_host_iff (h : parse value defaultUser = .ok j) :
    isBlankText j.host = true ↔ BlankHost value := by
  have hspells := parse_eq_ok_iff.mp h
  rw [Text.isBlankText_iff]
  constructor
  · exact hspells.blank_host (fun _ => Text.isBlank_of_head?_trimmed)
      (fun _ => Text.isBlank_of_getLast?_trimmed)
  · rintro ⟨u, h, p, hs, hat, hcolon, hblank⟩
    have hath : '@' ∉ h := fun hmem => absurd (hblank _ hmem) (by decide)
    rw [hspells.host_eq hs hath hat hcolon, String.toList_ofList]
    exact hblank

end Hop

namespace Target

variable {t : Target} {j : Hop}

/-- A target with a host and a port passes the check without a jump host. -/
theorem validate_of_no_hop (hhost : isBlankText t.host = false) (hport : t.port ≠ 0)
    (hhop : t.hop = none) : t.validate = .ok () := by
  simp only [validate, hhost, checkPort_toNat hport, hhop]
  rfl

/-- **The check of a jump host** that has a port is about its host. -/
theorem validate_of_hop (hhost : isBlankText t.host = false) (hport : t.port ≠ 0)
    (hhop : t.hop = some j) (hj : j.port ≠ 0) :
    t.validate = if isBlankText j.host then .error (.invalidInput "jump host cannot be empty")
      else .ok () := by
  simp only [validate, hhost, checkPort_toNat hport, hhop, checkPort_toNat hj]
  cases isBlankText j.host <;> rfl

end Target

/-! ## The target of a command -/

namespace Tool

variable {e : Environment} {a : ExecuteArgs} {t : Target}

/-- The port that the arguments of a command name. -/
def namedPort (a : ExecuteArgs) : Except Fault UInt16 :=
  match a.port with
  | none => .ok defaultPort
  | some n => checkPort n.toNat

theorem namedPort_ne_zero {p : UInt16} (h : namedPort a = .ok p) : p ≠ 0 := by
  unfold namedPort at h
  split at h
  · cases h
    decide
  · obtain ⟨hrange, rfl⟩ := checkPort_eq_ok_iff.mp h
    exact ofNat_ne_zero hrange

/-- The target without its jump host, then the jump host. -/
theorem target_eq (e : Environment) (a : ExecuteArgs) :
    target e a = (namedPort a).bind fun p =>
      let t : Target := ⟨a.host, p, filled a.user, filled a.keyPath, none⟩
      match filled a.jumpHost with
      | none => .ok t
      | some value =>
        (Hop.parse value (t.loginUser e.user?)).bind fun j => .ok { t with hop := some j } := by
  unfold target namedPort
  cases a.port <;> rfl

/-- **The target of a command** has the host of its arguments, a port, and the jump host that is
read from them, if they name one. -/
theorem target_cases (h : target e a = .ok t) :
    t.host = a.host ∧ t.port ≠ 0 ∧
      (filled a.jumpHost = none ∧ t.hop = none ∨
        ∃ value defaultUser j, filled a.jumpHost = some value ∧
          Hop.parse value defaultUser = .ok j ∧ t.hop = some j) := by
  rw [target_eq] at h
  obtain ⟨p, hport, h⟩ := bind_eq_ok_iff.mp h
  have hp := namedPort_ne_zero hport
  dsimp only at h
  cases hhop : filled a.jumpHost with
  | none =>
    rw [hhop] at h
    cases h
    exact ⟨rfl, hp, .inl ⟨rfl, rfl⟩⟩
  | some value =>
    rw [hhop] at h
    obtain ⟨j, hparse, h⟩ := bind_eq_ok_iff.mp h
    cases h
    exact ⟨rfl, hp, .inr ⟨value, _, j, rfl, hparse, rfl⟩⟩

end Tool

namespace Hop

/-- **What is read passes the check**, unless its host is blank.  A jump host that is read from a
text never spoils a target, and neither does the one that the arguments of a command name, but for
those texts in which blanks stand between the user and the port: they are read, and refused by the
check. -/
theorem validate_of_parse (value : String) :
    (∀ (defaultUser : String) (j : Hop), parse value defaultUser = .ok j →
      ∀ t : Target, t.hop = some j → isBlankText t.host = false → t.port ≠ 0 →
        (¬ BlankHost value → t.validate = .ok ()) ∧
        (BlankHost value → t.validate = .error (.invalidInput "jump host cannot be empty"))) ∧
    ∀ (e : Environment) (a : Tool.ExecuteArgs) (t : Target), Tool.target e a = .ok t →
      isBlankText a.host = false →
        ((∀ named, Tool.filled a.jumpHost = some named → named = value) →
          ¬ BlankHost value → t.validate = .ok ()) ∧
        (Tool.filled a.jumpHost = some value → BlankHost value →
          t.validate = .error (.invalidInput "jump host cannot be empty")) := by
  have hread (defaultUser : String) (j : Hop) (hparse : parse value defaultUser = .ok j)
      (t : Target) (hhop : t.hop = some j) (hhost : isBlankText t.host = false)
      (hport : t.port ≠ 0) : (¬ BlankHost value → t.validate = .ok ()) ∧
        (BlankHost value → t.validate = .error (.invalidInput "jump host cannot be empty")) := by
    rw [Target.validate_of_hop hhost hport hhop (parse_eq_ok_iff.mp hparse).port_ne_zero,
      ← isBlankText_host_iff hparse]
    exact ⟨fun hvisible => if_neg hvisible, fun hblank => if_pos hblank⟩
  refine ⟨hread, fun e a t htarget hhost => ?_⟩
  obtain ⟨hsame, hport, hhops⟩ := Tool.target_cases htarget
  rw [← hsame] at hhost
  -- The arguments name no jump host, or one that has been read.
  rcases hhops with ⟨hnone, hhop⟩ | ⟨named, defaultUser, j, hnamed, hparse, hhop⟩
  · exact ⟨fun _ _ => Target.validate_of_no_hop hhost hport hhop,
      fun hvalue => absurd (hnone.symm.trans hvalue) nofun⟩
  · constructor
    · intro hall hvisible
      obtain rfl := hall named hnamed
      exact (hread defaultUser j hparse t hhop hhost hport).1 hvisible
    · intro hvalue hblank
      obtain rfl := Option.some.inj (hnamed.symm.trans hvalue)
      exact (hread defaultUser j hparse t hhop hhost hport).2 hblank

/-- A jump host with a user, a host of colons and a port passes; blanks in place of the host are
refused. -/
theorem validate_of_parse_loopback :
    parse "ops@::1:2222" "deploy" = .ok ⟨"::1", 2222, "ops", none⟩ ∧ ¬ BlankHost "ops@::1:2222" ∧
    (⟨"db-01", 22, none, none, some ⟨"::1", 2222, "ops", none⟩⟩ : Target).validate = .ok () ∧
    BlankHost "u@ :22" ∧
    (⟨"db-01", 22, none, none, some ⟨" ", 22, "u", none⟩⟩ : Target).validate =
      .error (.invalidInput "jump host cannot be empty") := by
  have hparse : parse "ops@::1:2222" "deploy" = .ok ⟨"::1", 2222, "ops", none⟩ := rfl
  have hvisible : ¬ BlankHost "ops@::1:2222" := by
    rw [← isBlankText_host_iff hparse]
    decide
  have hblank : BlankHost "u@ :22" :=
    ⟨['u'], [' '], ['2', '2'], rfl, by decide, by decide, List.forall_mem_singleton.mpr rfl⟩
  exact ⟨hparse, hvisible,
    ((validate_of_parse "ops@::1:2222").1 "deploy" _ hparse _ rfl rfl (by decide)).1 hvisible,
    hblank, ((validate_of_parse "u@ :22").1 "deploy" ⟨" ", 22, "u", none⟩ rfl _ rfl rfl
      (by decide)).2 hblank⟩

/-- **A blank host is read.**  The arguments of a command with a blank between the user and the port
of its jump host make a target, which the check then refuses for its jump host. -/
theorem parse_blank_host :
    parse "u@ :22" "deploy" = .ok ⟨" ", 22, "u", none⟩ ∧
    ∃ t, Tool.target ⟨[]⟩ ⟨"db-01", "id", none, none, none, some "u@ :22", none, none⟩ = .ok t ∧
      isBlankText t.host = false ∧ t.port ≠ 0 ∧ t.hop = some ⟨" ", 22, "u", none⟩ ∧
      t.validate = .error (.invalidInput "jump host cannot be empty") :=
  ⟨rfl, ⟨"db-01", 22, none, none, some ⟨" ", 22, "u", none⟩⟩, rfl, rfl, by decide, rfl, rfl⟩

end Hop

end RemoteShell
