import RemoteShell.Proofs.Credential.Questions
import RemoteShell.Proofs.Elevation.Marks
import RemoteShell.Proofs.Elevation.Questions
import RemoteShell.Proofs.Text.Lowering

/-!
# Where prompts are answered from

An operator who is only an environment tells by the words of a prompt which variable is meant.  The
prompts are made from fixed words and from names: of the user, as the host reports it, of the host
and of the key file.  A name that has one of the words in it is taken for the words of the prompt.

A prompt for the passphrase of a key file always speaks of a passphrase, whatever the path is.  A
prompt for the root password is taken for one for a passphrase if the name of the host speaks of
one, and a prompt for the user's password if the user or the host speaks of a passphrase or of the
root password.  These are the only ways to get another variable.

## Main definitions

* `Speaks`: a text speaks of something, in letters of either case
* `variableOf`, `Misleads`: the variable meant for a password, and the names that lead away from it

## Main results

* `speaks_promptText_iff`, `speaks_promptText_su_iff`: only the names can add a word
* `variableFor_promptText_iff`: which prompts are answered from the variable that is meant
* `prompts_routed`: all prompts of elevation and of key files
* `passphrase_for_password`: a user whose name has a passphrase handed out for a password
-/

namespace RemoteShell.Credential

open Elevation (Method PasswordKind promptText)

variable {k : Login} {m : Method} {user host word message x : String} {kind : PasswordKind}

/-- **A text speaks of something**, in letters of either case. -/
def Speaks (s word : String) : Prop := Text.contains (Text.lowercase s) word = true

/-- The variable that is meant for a kind of password. -/
def variableOf : PasswordKind → String
  | .user => "SSH_SUDO_PASSWORD"
  | .root => "SSH_SU_PASSWORD"

/-- **Names that mislead**: a prompt with them is taken for a prompt of another kind. -/
def Misleads (kind : PasswordKind) (user host : String) : Prop :=
  match kind with
  | .user => ∃ word ∈ ["passphrase", "root password"], Speaks user word ∨ Speaks host word
  | .root => Speaks host "passphrase"

instance (s word : String) : Decidable (Speaks s word) :=
  inferInstanceAs (Decidable (_ = true))

instance (kind : PasswordKind) (user host : String) : Decidable (Misleads kind user host) :=
  match kind with
  | .user => inferInstanceAs (Decidable (∃ word ∈ _, _))
  | .root => inferInstanceAs (Decidable (Speaks host "passphrase"))

/-! ## The words of prompts -/

/-- A word is one of those that a prompt is searched for. -/
theorem ascii_of_mem (h : word ∈ ["passphrase", "root password"]) :
    ∀ c ∈ word.toList, c.toNat < 128 := by
  rcases List.mem_pair.mp h with rfl | rfl <;> simp

theorem speaks_iff (h : word ∈ ["passphrase", "root password"]) (s : String) :
    Speaks s word ↔ word.toList <:+: Text.loweredAlone s.toList :=
  Text.contains_lowercase_iff (ascii_of_mem h) s

/-- A name between two fixed texts that have nothing of the word. -/
theorem infix_between_iff {w front name behind : List Char}
    (hfront : ¬ w <:+: front) (hstarts : ∀ i < w.length, 0 < i → ¬ w.take i <:+ front)
    (hbehind : ¬ w <:+: behind) (hends : ∀ i < w.length, 0 < i → ¬ w.drop i <+: behind) :
    w <:+: front ++ (name ++ behind) ↔ w <:+: name := by
  rw [Text.infix_append_of_no_start hstarts, Text.infix_append_of_no_end hends,
    or_iff_right hfront, or_iff_left hbehind]

/-- **A prompt for the user's password** speaks of what the user or the host speak of. -/
theorem speaks_promptText_iff (hm : m ≠ .su) (hword : word ∈ ["passphrase", "root password"]) :
    Speaks (promptText k m user) word ↔ Speaks user word ∨ Speaks k.host word := by
  have hlowered : Text.loweredAlone (promptText k m user).toList =
      "enter password for ".toList ++
        ((Text.loweredAlone user.toList ++ '@' :: Text.loweredAlone k.host.toList) ++
          (" (" ++ m.name ++ "):").toList) := by
    have hfront : Text.loweredAlone "Enter password for ".toList =
        "enter password for ".toList := by decide
    have hat : Text.loweredAlone "@".toList = ['@'] := by decide
    have hbehind : Text.loweredAlone (" (" ++ m.name ++ "):").toList =
        (" (" ++ m.name ++ "):").toList := by cases m <;> decide
    rw [← hbehind, ← hfront, Elevation.promptText_of_ne_su k hm]
    simp only [String.toList_append, Text.loweredAlone_append, hat, List.append_assoc,
      List.cons_append, List.nil_append]
  rw [speaks_iff hword, speaks_iff hword, speaks_iff hword, hlowered, infix_between_iff,
    Text.infix_append_cons]
  all_goals rcases List.mem_pair.mp hword with rfl | rfl
  all_goals first | decide | (cases m <;> decide)

/-- **A prompt for the root password** speaks of a passphrase only if the host does. -/
theorem speaks_promptText_su_iff :
    Speaks (promptText k .su user) "passphrase" ↔ Speaks k.host "passphrase" := by
  have hword : "passphrase" ∈ ["passphrase", "root password"] := List.mem_cons_self
  have hlowered : Text.loweredAlone (promptText k .su user).toList =
      "enter root password for su on ".toList ++
        (Text.loweredAlone k.host.toList ++ ":".toList) := by
    have hfront : Text.loweredAlone "Enter root password for su on ".toList =
        "enter root password for su on ".toList := by decide
    have hbehind : Text.loweredAlone ":".toList = ":".toList := by decide
    rw [Elevation.promptText_su, String.toList_append, String.toList_append,
      Text.loweredAlone_append, Text.loweredAlone_append, hfront, hbehind]
  rw [speaks_iff hword, speaks_iff hword, hlowered]
  exact infix_between_iff (by decide) (by decide) (by decide) (by decide)

/-- What the fixed words in front of a name speak of. -/
theorem speaks_append_of_front (hword : word ∈ ["passphrase", "root password"]) {front : String}
    (hfront : word.toList <:+: Text.loweredAlone front.toList) (name : String) :
    Speaks (front ++ name) word := by
  rw [speaks_iff hword, String.toList_append, Text.loweredAlone_append]
  exact List.infix_append_iff.mpr (.inl hfront)

/-- A prompt for the root password says so. -/
theorem speaks_promptText_su (k : Login) (user : String) :
    Speaks (promptText k .su user) "root password" := by
  rw [Elevation.promptText_su]
  exact speaks_append_of_front (by decide) (by decide) _

/-- A prompt for the passphrase of a key file says so. -/
theorem speaks_passphrase_prompt (path : String) :
    Speaks ("Enter passphrase for key " ++ path) "passphrase" :=
  speaks_append_of_front (by decide) (by decide) path

/-! ## The variables -/

theorem variableFor_of_passphrase (h : Speaks message "passphrase") :
    variableFor message = "SSH_KEY_PASSPHRASE" := by
  unfold variableFor
  exact if_pos h

theorem variableFor_of_root (h : ¬ Speaks message "passphrase")
    (hroot : Speaks message "root password") : variableFor message = "SSH_SU_PASSWORD" := by
  unfold variableFor
  exact (if_neg h).trans (if_pos hroot)

theorem variableFor_of_other (h : ¬ Speaks message "passphrase")
    (hroot : ¬ Speaks message "root password") : variableFor message = "SSH_SUDO_PASSWORD" := by
  unfold variableFor
  exact (if_neg h).trans (if_neg hroot)

/-- The variable of a prompt tells of what it speaks. -/
theorem variableFor_eq_sudo_iff :
    variableFor message = "SSH_SUDO_PASSWORD" ↔
      ¬ ∃ word ∈ ["passphrase", "root password"], Speaks message word := by
  have hwords : (∃ word ∈ ["passphrase", "root password"], Speaks message word) ↔
      Speaks message "passphrase" ∨ Speaks message "root password" := by simp
  rw [hwords]
  by_cases h : Speaks message "passphrase"
  · rw [variableFor_of_passphrase h]
    exact iff_of_false (by decide) (not_not.mpr (.inl h))
  by_cases hroot : Speaks message "root password"
  · rw [variableFor_of_root h hroot]
    exact iff_of_false (by decide) (not_not.mpr (.inr hroot))
  · rw [variableFor_of_other h hroot]
    exact iff_of_true rfl (not_or.mpr ⟨h, hroot⟩)

/-- **Which prompts are answered from the variable that is meant**: those without a name that
misleads. -/
theorem variableFor_promptText_iff (hkind : m.passwordKind? = some kind) :
    variableFor (promptText k m user) = variableOf kind ↔ ¬ Misleads kind user k.host := by
  cases kind with
  | user =>
    have hm : m ≠ .su := by
      rintro rfl
      cases hkind
    have hsame : (∃ word ∈ ["passphrase", "root password"], Speaks (promptText k m user) word) ↔
        Misleads .user user k.host :=
      exists_congr fun word => and_congr_right fun hword => speaks_promptText_iff hm hword
    exact variableFor_eq_sudo_iff.trans (not_congr hsame)
  | root =>
    obtain rfl : m = .su := by
      cases m <;> first | rfl | cases hkind
    by_cases h : Speaks k.host "passphrase"
    · rw [variableFor_of_passphrase (speaks_promptText_su_iff.mpr h)]
      exact iff_of_false (by decide) (not_not.mpr h)
    · rw [variableFor_of_root (mt speaks_promptText_su_iff.mp h) (speaks_promptText_su k user)]
      exact iff_of_true rfl h

/-- An environment answers a prompt from its variable, and some environment has no other. -/
theorem answered_from_iff :
    (∀ e, (Operator.environment e).secret message = e.filled? x) ↔ variableFor message = x := by
  constructor
  · intro h
    have hthis := h ⟨[(variableFor message, "secret")]⟩
    have hanswer : (Operator.environment ⟨[(variableFor message, "secret")]⟩).secret message =
        some "secret" := by
      simp [Operator.secret, Environment.filled?, Environment.text?, Assoc.get?_cons]
    by_contra hne
    rw [hanswer] at hthis
    simp [Environment.filled?, Environment.text?, Assoc.get?_cons, hne] at hthis
  · rintro rfl e
    rfl

/-- **Where prompts are answered from.**  A call of elevation only asks for passwords of methods
that take one, and such a prompt is answered from the variable that is meant exactly if no name in
it misleads.  A key file that is loaded only asks for its passphrase, and is answered from the
variable of passphrases, whatever the path. -/
theorem prompts_routed (settings : ElevationSettings) (k : Login) :
    (∀ (command : String) (timeout : Duration) (v : Option Elevation.Profile),
      (Elevation.ascend settings k command timeout v).All fun q =>
        ∀ message, q = .prompt message →
          ∃ m kind user, m.passwordKind? = some kind ∧ message = promptText k m user) ∧
    (∀ (m : Method) (kind : PasswordKind) (user : String),
      m.passwordKind? = some kind →
        ((∀ e, (Operator.environment e).secret (promptText k m user) =
            e.filled? (variableOf kind)) ↔
          ¬ Misleads kind user k.host)) ∧
    (∀ path host : String,
      (load path host).All fun q =>
        ∀ message, q = .prompt message →
          ∀ e, (Operator.environment e).secret message = e.filled? "SSH_KEY_PASSPHRASE") := by
  refine ⟨fun command timeout v => ?_, fun m kind user hkind => ?_, fun path host => ?_⟩
  · refine (Elevation.all_ascend settings k command timeout v).mono fun q hq message hmessage => ?_
    obtain ⟨user, hq⟩ := hq
    subst hmessage
    cases hq with
    | @prompt m hm =>
      obtain ⟨kind, hkind⟩ := Option.isSome_iff_exists.mp hm
      exact ⟨m, kind, user, hkind, rfl⟩
  · exact answered_from_iff.trans (variableFor_promptText_iff hkind)
  · refine (all_load path host).mono fun q hq message hmessage => ?_
    subst hmessage
    cases hq with
    | prompt =>
      exact answered_from_iff.mpr (variableFor_of_passphrase (speaks_passphrase_prompt path))

/-- With names that say nothing the prompt for the password of `sudo` is answered with it. -/
theorem prompt_routed_for_deploy :
    ∀ e, (Operator.environment e).secret
        (promptText ⟨"deploy", "db-01", 22⟩ .sudoPassword "deploy") =
      e.filled? "SSH_SUDO_PASSWORD" :=
  ((prompts_routed ⟨.ofSecs 30, .ofSecs 15⟩ _).2.1 .sudoPassword .user _ rfl).mpr (by decide)

/-- **A passphrase for a password**: a host calls its user `passphrase`, and the prompt for the
password of `sudo` is answered with the passphrase of key files, though the environment has the
password. -/
theorem passphrase_for_password :
    let e : Environment :=
      ⟨[("SSH_KEY_PASSPHRASE", "of the key"), ("SSH_SUDO_PASSWORD", "of the user")]⟩
    Elevation.Probe.userOf "deploy" (some ⟨"passphrase\n", "", 0⟩) = "passphrase" ∧
      e.filled? "SSH_SUDO_PASSWORD" = some "of the user" ∧
      (Operator.environment e).secret
        (promptText ⟨"deploy", "db-01", 22⟩ .sudoPassword "passphrase") = some "of the key" := by
  decide

end RemoteShell.Credential
