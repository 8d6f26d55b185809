import Mathlib.Data.List.Basic
import RemoteShell.Proofs.Credential.Questions
import RemoteShell.Proofs.Elevation.Questions
import RemoteShell.Proofs.Text.Lines

/-!
# Names of secrets

Secrets are kept by name, so whether one is handed out in place of another is a question about the
names.  Three families of names are told apart by how they begin, and the port at the end of the
name of a password is read without doubt, since a number has no colon in it.  Between the two stands
the text `user@host`, and neither the user that a host reports nor the name of a host is free of
`@`: a text with two of them is read in two ways.  These are the only secrets that share a name.

## Main definitions

* `Secret`, `Secret.name`: the secrets, and what they are kept under
* `Secret.Confused`: two passwords whose accounts are one text

## Main results

* `Secret.name_eq_iff`: which secrets share a name
* `Secret.kept_apart`: what is found, stored and asked for by name
* `Secret.shared_by_accounts`: two accounts whose passwords are kept under one name
-/

namespace RemoteShell

open Elevation (PasswordKind)

/-! ## Reading texts from the right -/

section Reading

variable {α : Type} {c : α} {a a' p p' : List α}

/-- Two readings of one text at a separator that may occur several times: they agree, or the first
ends before the second or behind it. -/
theorem append_sep_eq (h : a ++ c :: p = a' ++ c :: p') :
    (a = a' ∧ p = p') ∨ (∃ mid, a' = a ++ c :: mid ∧ p = mid ++ c :: p') ∨
      ∃ mid, a = a' ++ c :: mid ∧ p' = mid ++ c :: p := by
  rcases List.append_eq_append_iff.mp h with ⟨mid, hmid, hrest⟩ | ⟨mid, hmid, hrest⟩
  · cases mid with
    | nil => exact .inl ⟨by simp [hmid], (List.cons.inj hrest).2⟩
    | cons d mid =>
      obtain ⟨rfl, htail⟩ := List.cons.inj hrest
      exact .inr (.inl ⟨mid, hmid, htail⟩)
  · cases mid with
    | nil => exact .inl ⟨by simp [hmid], (List.cons.inj hrest).2.symm⟩
    | cons d mid =>
      obtain ⟨rfl, htail⟩ := List.cons.inj hrest
      exact .inr (.inr ⟨mid, hmid, htail⟩)

/-- Texts that begin differently. -/
theorem append_ne_of_getElem? {s s' t t' : String} (i : Nat) (hi : i < s.toList.length)
    (hi' : i < s'.toList.length) (hne : s.toList[i]? ≠ s'.toList[i]?) : s ++ t ≠ s' ++ t' := by
  intro h
  apply hne
  have hchars := congrArg (fun text : String => text.toList[i]?) h
  simpa only [String.toList_append, List.getElem?_append_left hi,
    List.getElem?_append_left hi'] using hchars

/-- A number has no colon in it. -/
theorem colon_notMem_toDigits (n : Nat) : ':' ∉ Nat.toDigits 10 n := by
  intro h
  have hdigit := Nat.isDigit_of_mem_toDigits (by decide) (by decide) h
  exact absurd hdigit (by decide)

theorem toDigits_injective {n n' : Nat} (h : Nat.toDigits 10 n = Nat.toDigits 10 n') : n = n' := by
  have hvalue := congrArg (fun digits => Nat.ofDigitChars 10 digits 0) h
  simpa using hvalue

end Reading

/-! ## Secrets -/

/-- What is kept under a name. -/
inductive Secret where
  | passphraseOfPath (path : String)
  | passphraseOfHost (host : String)
  | password (kind : PasswordKind) (user host : String) (port : UInt16)
  deriving DecidableEq

namespace Secret

variable {a b : Secret} {kind kind' : PasswordKind} {user user' host host' : String}
  {port port' : UInt16}

/-- The name that a secret is kept under. -/
def name : Secret → String
  | passphraseOfPath path => Vault.passphraseOfPath path
  | passphraseOfHost host => Vault.passphraseOfHost host
  | password kind user host port => Vault.passwordOf kind.space user host port

/-- **Two passwords whose accounts are one text**: of two `@` in it, one reading takes the first to
end the user and the other reading the second. -/
inductive Confused : Secret → Secret → Prop where
  | first (kind : PasswordKind) (user mid host : String) (port : UInt16) :
    Confused (password kind user (mid ++ "@" ++ host) port)
      (password kind (user ++ "@" ++ mid) host port)
  | second (kind : PasswordKind) (user mid host : String) (port : UInt16) :
    Confused (password kind (user ++ "@" ++ mid) host port)
      (password kind user (mid ++ "@" ++ host) port)

/-- The account and the port in the name of a password, as characters. -/
theorem toList_name_password (kind : PasswordKind) (user host : String) (port : UInt16) :
    (password kind user host port).name.toList =
      ("ssh-elevation:" ++ kind.space ++ ":").toList ++
        ((user.toList ++ '@' :: host.toList) ++ ':' :: Nat.toDigits 10 port.toNat) := by
  unfold name Vault.passwordOf
  simp only [String.toList_append, List.append_assoc]
  rw [Nat.toString_eq_repr, Nat.toList_repr]
  rfl

/-- The kind of a password shows in its name. -/
theorem kind_eq_of_name_eq
    (h : (password kind user host port).name = (password kind' user' host' port').name) :
    kind = kind' := by
  have hname (kind : PasswordKind) (user host : String) (port : UInt16) :
      (password kind user host port).name = "ssh-elevation:" ++ kind.space ++
        (":" ++ user ++ "@" ++ host ++ ":" ++ toString port.toNat) := by
    unfold name Vault.passwordOf
    simp only [String.append_assoc]
  rw [hname, hname] at h
  cases kind <;> cases kind'
  · rfl
  · exact absurd h (append_ne_of_getElem? 14 (by decide) (by decide) (by decide))
  · exact absurd h (append_ne_of_getElem? 14 (by decide) (by decide) (by decide))
  · rfl

/-- The name of a password is read from the right as far as the account. -/
theorem account_eq_of_name_eq
    (h : (password kind user host port).name = (password kind user' host' port').name) :
    port = port' ∧ user.toList ++ '@' :: host.toList = user'.toList ++ '@' :: host'.toList := by
  have hchars := congrArg String.toList h
  rw [toList_name_password, toList_name_password] at hchars
  obtain ⟨haccount, hport⟩ := Text.append_sep_inj (colon_notMem_toDigits _)
    (colon_notMem_toDigits _) (List.append_cancel_left hchars)
  exact ⟨UInt16.toNat_inj.mp (toDigits_injective hport), haccount⟩

theorem Confused.symm (h : a.Confused b) : b.Confused a := by
  cases h with
  | first kind user mid host port => exact .second kind user mid host port
  | second kind user mid host port => exact .first kind user mid host port

/-- Confused passwords have one name. -/
theorem Confused.name_eq (h : a.Confused b) : a.name = b.name := by
  cases h <;> unfold name Vault.passwordOf <;> simp only [String.append_assoc]

/-- A text with a separator inside, put together from its characters. -/
theorem eq_append_of_toList {s : String} {l l' : List Char} (h : s.toList = l ++ '@' :: l') :
    s = String.ofList l ++ "@" ++ String.ofList l' := by
  apply String.toList_injective
  simp only [h, String.toList_append, String.toList_ofList, List.append_assoc]
  rfl

/-- Two passwords under one name are the same, or their accounts are one text. -/
theorem eq_or_confused_of_name_eq
    (h : (password kind user host port).name = (password kind' user' host' port').name) :
    password kind user host port = password kind' user' host' port' ∨
      (password kind user host port).Confused (password kind' user' host' port') := by
  obtain rfl := kind_eq_of_name_eq h
  obtain ⟨rfl, haccount⟩ := account_eq_of_name_eq h
  rcases append_sep_eq haccount with ⟨huser, hhost⟩ | ⟨mid, huser, hhost⟩ | ⟨mid, huser, hhost⟩
  · obtain rfl := String.toList_injective huser
    obtain rfl := String.toList_injective hhost
    exact .inl rfl
  · rw [eq_append_of_toList huser, eq_append_of_toList hhost, String.ofList_toList,
      String.ofList_toList]
    exact .inr (.first kind user (String.ofList mid) host' port)
  · rw [eq_append_of_toList huser, eq_append_of_toList hhost, String.ofList_toList,
      String.ofList_toList]
    exact .inr (.second kind user' (String.ofList mid) host port)

/-! ## The families -/

theorem passphrase_names_ne (path host : String) :
    (passphraseOfPath path).name ≠ (passphraseOfHost host).name :=
  append_ne_of_getElem? 15 (by decide) (by decide) (by decide)

theorem name_password_ne {s : String} (hlength : 4 < s.toList.length)
    (hchar : s.toList[4]? = some 'p') (rest : String) :
    (password kind user host port).name ≠ s ++ rest := by
  unfold name Vault.passwordOf
  simp only [String.append_assoc]
  exact append_ne_of_getElem? 4 (by decide) hlength (by rw [hchar]; decide)

/-- **Which secrets share a name**: none but confused passwords. -/
theorem name_eq_iff : a.name = b.name ↔ a = b ∨ a.Confused b := by
  constructor
  · intro h
    cases a with
    | passphraseOfPath path =>
      cases b with
      | passphraseOfPath path' => exact .inl (congrArg _ ((String.append_right_inj _).mp h))
      | passphraseOfHost host' => exact absurd h (passphrase_names_ne path host')
      | password => exact absurd h.symm (name_password_ne (by decide) (by decide) path)
    | passphraseOfHost host =>
      cases b with
      | passphraseOfPath path' => exact absurd h.symm (passphrase_names_ne path' host)
      | passphraseOfHost host' => exact .inl (congrArg _ ((String.append_right_inj _).mp h))
      | password => exact absurd h.symm (name_password_ne (by decide) (by decide) host)
    | password kind user host port =>
      cases b with
      | passphraseOfPath path' => exact absurd h (name_password_ne (by decide) (by decide) path')
      | passphraseOfHost host' => exact absurd h (name_password_ne (by decide) (by decide) host')
      | password => exact eq_or_confused_of_name_eq h
  · rintro (rfl | h)
    · rfl
    · exact h.name_eq

/-- Confusion takes an `@` in a user and one in a host. -/
theorem Confused.mem
    (h : (password kind user host port).Confused (password kind' user' host' port')) :
    ('@' ∈ user.toList ∧ '@' ∈ host'.toList) ∨ ('@' ∈ user'.toList ∧ '@' ∈ host.toList) := by
  have hat (s t : String) : '@' ∈ (s ++ "@" ++ t).toList := by
    rw [String.toList_append, String.toList_append]
    exact List.mem_append_left _ (List.mem_append_right _ (by decide))
  cases h with
  | first mid => exact .inr ⟨hat _ _, hat _ _⟩
  | second mid => exact .inl ⟨hat _ _, hat _ _⟩

/-! ## What is found and asked for -/

/-- The password of a method is kept as that of its kind. -/
theorem secretName_eq {k : Login} {m : Elevation.Method} (hm : m.needsPassword = true)
    (user : String) :
    ∃ kind, m.passwordKind? = some kind ∧
      Elevation.secretName k m user = (password kind user k.host k.port).name := by
  obtain ⟨kind, hkind⟩ := Option.isSome_iff_exists.mp hm
  refine ⟨kind, hkind, ?_⟩
  unfold Elevation.secretName name
  rw [hkind]
  rfl

/-- A stored secret changes what is found under its own name only. -/
theorem get?_set_of_ne (v : Vault) (s : String) {n n' : String} (h : n ≠ n') :
    (v.set n s).get? n' = v.get? n' := by
  unfold Vault.set Vault.get?
  split
  · dsimp only
    rw [Assoc.get?_put_of_ne _ _ h.symm]
  · rfl

theorem get?_set_self {v : Vault} (hv : v.remembers = true) (n s : String) :
    (v.set n s).get? n = some s := by
  unfold Vault.set Vault.get?
  rw [if_pos hv, if_pos hv]
  exact Assoc.get?_put_self _ _ _

/-- **Secrets are kept apart** as far as their accounts are: two secrets share a name only if they
are passwords whose accounts are one text, and only then a stored secret changes what is found for
another one.  A call of elevation goes to the vault for the passwords of its own account, and a key
file is loaded with the passphrases of its own path and host. -/
theorem kept_apart (a b : Secret) :
    (a.name = b.name ↔ a = b ∨ a.Confused b) ∧
    (∀ (v : Vault) (s : String),
      (v.set a.name s).get? b.name = v.get? b.name ∨ a = b ∨ a.Confused b) ∧
    (∀ (settings : ElevationSettings) (k : Login) (command : String) (timeout : Duration)
      (p : Elevation.Profile),
      (Elevation.ascendFrom settings k command timeout p).All fun q =>
        ∀ n ∈ q.secret?, ∃ kind, n = (password kind p.user k.host k.port).name) ∧
    (∀ path host : String,
      (Credential.load path host).All fun q =>
        ∀ n ∈ q.secret?, n = (passphraseOfPath path).name ∨ n = (passphraseOfHost host).name) := by
  refine ⟨name_eq_iff, fun v s => ?_, fun settings k command timeout p => ?_,
    fun path host => ?_⟩
  · by_cases h : a.name = b.name
    · exact .inr (name_eq_iff.mp h)
    · exact .inl (get?_set_of_ne v s h)
  · refine (Elevation.all_ascendFrom settings k command timeout p).mono fun q hq n hn => ?_
    cases hq with
    | run e => exact nomatch hn
    | prompt hm => exact nomatch hn
    | keep hp => exact nomatch hn
    | fetch hm | erase hm | store hm =>
      obtain ⟨kind, -, hname⟩ := secretName_eq (k := k) hm p.user
      exact ⟨kind, (Option.mem_some_iff.mp hn).symm.trans hname⟩
  · refine (Credential.all_load path host).mono fun q hq n hn => ?_
    cases hq with
    | read => exact nomatch hn
    | prompt => exact nomatch hn
    | fetch hname | store hname =>
      obtain rfl := Option.mem_some_iff.mp hn
      rcases List.mem_cons.mp hname with hpath | hhost
      · exact .inl hpath
      · exact .inr (List.mem_singleton.mp hhost)

/-- **Two accounts under one name**: a user whom the host `y` calls `deploy@x`, and the user
`deploy` of the host `x@y`.  Both hosts are accepted and so is the user, and the password stored for
the one is found for the other. -/
theorem shared_by_accounts :
    (Target.mk "y" 22 none none none).validate.toBool = true ∧
    (Target.mk "x@y" 22 none none none).validate.toBool = true ∧
    Elevation.Probe.userOf "root" (some ⟨"deploy@x\n", "", 0⟩) = "deploy@x" ∧
    password .user "deploy@x" "y" 22 ≠ password .user "deploy" "x@y" 22 ∧
    (password .user "deploy@x" "y" 22).name = (password .user "deploy" "x@y" 22).name ∧
    ((Vault.mk true []).set (password .user "deploy@x" "y" 22).name "hunter2").get?
      (password .user "deploy" "x@y" 22).name = some "hunter2" := by
  have hname : (password .user "deploy@x" "y" 22).name = (password .user "deploy" "x@y" 22).name :=
    (Confused.second .user "deploy" "x" "y" 22).name_eq
  refine ⟨by decide, by decide, by decide, by decide, hname, ?_⟩
  rw [hname]
  exact get?_set_self rfl _ _

end Secret

end RemoteShell
