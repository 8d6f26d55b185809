import RemoteShell.Proofs.Text.Lines
import RemoteShell.Proofs.Text.Numerals
import RemoteShell.Target

/-!
# How a jump host is written

A jump host is written as `h`, `h:p`, `u@h` or `u@h:p`, and read from the right: the last `@` ends
the user, the last colon behind it ends the host.  So a user may have an `@` in it, and a host may
have colons in it as long as a port stands behind it.

## Main definitions

* `Hop.Address`: a host with the port behind it, if one is written
* `Hop.Spells`: a text spells a jump host

## Main results

* `parse_eq_ok_iff`: a text is read as a jump host just if it spells it, blanks at its ends apart
* `parse_invalid`: a text that is not read is invalid input
* `Login.spells_text`: the text of an account spells it
* `parse_exact`: the whole grammar
-/

namespace RemoteShell

open Text (Numeral splitLast? trimmed)

section Except

variable {ε α β : Type} {x : Except ε α} {g : α → Except ε β} {e : ε} {b : β}

theorem bind_eq_ok_iff : x.bind g = .ok b ↔ ∃ a, x = .ok a ∧ g a = .ok b := by
  cases x <;> simp [Except.bind]

theorem bind_eq_error_iff :
    x.bind g = .error e ↔ x = .error e ∨ ∃ a, x = .ok a ∧ g a = .error e := by
  cases x <;> simp [Except.bind]

end Except

theorem checkPort_eq_ok_iff {n : Nat} {port : UInt16} :
    checkPort n = .ok port ↔ (1 ≤ n ∧ n ≤ 65535) ∧ port = UInt16.ofNat n := by
  unfold checkPort
  split
  · next h => simp [h, eq_comm]
  · next h => simp [h]

theorem checkPort_invalid {n : Nat} {f : Fault} (h : checkPort n = .error f) :
    ∃ reason, f = .invalidInput reason := by
  unfold checkPort at h
  split at h
  · cases h
  · exact ⟨_, (Except.error.inj h).symm⟩

/-- A port that is not zero passes its check. -/
theorem checkPort_toNat {port : UInt16} (h : port ≠ 0) : checkPort port.toNat = .ok port := by
  have hpos : port.toNat ≠ 0 := fun hzero => h (UInt16.toNat_inj.mp hzero)
  have hlt : port.toNat < 65536 := port.toNat_lt
  exact checkPort_eq_ok_iff.mpr ⟨⟨by omega, by omega⟩, UInt16.ofNat_toNat.symm⟩

namespace Hop

variable {value defaultUser : String} {s rest host user : List Char} {port : UInt16} {f : Fault}
  {j : Hop}

/-- **A host with its port**: `h` without a colon for the port of the protocol, or `h:p`. -/
inductive Address : List Char → List Char → UInt16 → Prop where
  | bare {h : List Char} (hcolon : ':' ∉ h) : Address h h defaultPort
  | withPort {h p : List Char} {n : Nat} (hn : Numeral p n) (hrange : 1 ≤ n ∧ n ≤ 65535) :
    Address (h ++ ':' :: p) h (UInt16.ofNat n)

/-- **A text spells a jump host**: `a` or `u@a`, where `a` is a host with its port, and neither the
user nor the host is empty. -/
inductive Spells (defaultUser : String) : List Char → Hop → Prop where
  | alone {a h : List Char} {port : UInt16} (ha : Address a h port) (hne : h ≠ [])
    (hat : '@' ∉ h) : Spells defaultUser a ⟨String.ofList h, port, defaultUser, none⟩
  | byUser {u a h : List Char} {port : UInt16} (hu : u ≠ []) (ha : Address a h port) (hne : h ≠ [])
    (hat : '@' ∉ h) :
    Spells defaultUser (u ++ '@' :: a) ⟨String.ofList h, port, String.ofList u, none⟩

/-- A port has no `@` in it. -/
theorem Address.at_notMem_iff (h : Address s host port) : '@' ∉ s ↔ '@' ∉ host := by
  cases h with
  | bare => rfl
  | withPort hn =>
    have hport := Text.notMem_of_numeral hn (c := '@') (by decide) (by decide)
    simp [hport]

/-! ## From the right -/

theorem parseAddress_eq_ok_iff :
    parseAddress s = .ok (host, port) ↔ Address s host port := by
  unfold parseAddress
  constructor
  · intro h
    split at h
    · next hsplit =>
      cases h
      exact .bare (Text.splitLast?_eq_none_iff.mp hsplit)
    · next before after hsplit =>
      obtain ⟨rfl, -⟩ := Text.splitLast?_eq_some_iff.mp hsplit
      split at h
      · cases h
      · next n hn =>
        rw [Except.map.eq_def] at h
        split at h
        · cases h
        · next p hport =>
          cases h
          obtain ⟨hrange, rfl⟩ := checkPort_eq_ok_iff.mp hport
          exact .withPort (Text.natOf?_eq_some_iff.mp hn).1 hrange
  · intro h
    cases h with
    | bare hcolon => rw [Text.splitLast?_eq_none_iff.mpr hcolon]
    | @withPort _ p n hn hrange =>
      have hcolon := Text.notMem_of_numeral hn (c := ':') (by decide) (by decide)
      have hsplit : splitLast? ':' (host ++ ':' :: p) = some (host, p) :=
        Text.splitLast?_eq_some_iff.mpr ⟨rfl, hcolon⟩
      have hbound : n ≤ UInt32.size - 1 := hrange.2.trans (by decide)
      have hread : Text.natOf? (UInt32.size - 1) p = some n :=
        Text.natOf?_eq_some_iff.mpr ⟨hn, hbound⟩
      have hport : checkPort n = .ok (UInt16.ofNat n) := checkPort_eq_ok_iff.mpr ⟨hrange, rfl⟩
      simp only [hsplit, hread, hport]
      rfl

theorem parseAddress_invalid (h : parseAddress s = .error f) :
    ∃ reason, f = .invalidInput reason := by
  unfold parseAddress at h
  split at h
  · cases h
  · split at h
    · exact ⟨_, (Except.error.inj h).symm⟩
    · rw [Except.map.eq_def] at h
      split at h
      · next hport =>
        cases h
        exact checkPort_invalid hport
      · cases h

/-- The user and what stands behind it. -/
theorem parseUser_eq_ok_iff {name : String} :
    parseUser s defaultUser = .ok (name, rest) ↔ '@' ∉ rest ∧
      (s = rest ∧ name = defaultUser ∨
        ∃ u, u ≠ [] ∧ s = u ++ '@' :: rest ∧ name = String.ofList u) := by
  unfold parseUser
  constructor
  · intro h
    split at h
    · next hsplit =>
      cases h
      exact ⟨Text.splitLast?_eq_none_iff.mp hsplit, .inl ⟨rfl, rfl⟩⟩
    · cases h
    · next u after hne hsplit =>
      cases h
      obtain ⟨rfl, hat⟩ := Text.splitLast?_eq_some_iff.mp hsplit
      exact ⟨hat, .inr ⟨u, hne, rfl, rfl⟩⟩
  · rintro ⟨hat, ⟨rfl, rfl⟩ | ⟨u, hne, rfl, rfl⟩⟩
    · rw [Text.splitLast?_eq_none_iff.mpr hat]
    · have hsplit : splitLast? '@' (u ++ '@' :: rest) = some (u, rest) :=
        Text.splitLast?_eq_some_iff.mpr ⟨rfl, hat⟩
      obtain ⟨c, u, rfl⟩ := List.exists_cons_of_ne_nil hne
      rw [hsplit]

theorem parseUser_invalid (h : parseUser s defaultUser = .error f) :
    ∃ reason, f = .invalidInput reason := by
  unfold parseUser at h
  split at h
  · cases h
  · exact ⟨_, (Except.error.inj h).symm⟩
  · cases h

/-! ## The whole text -/

/-- The two splits after each other, then the check of the host. -/
theorem parse_eq (value defaultUser : String) :
    parse value defaultUser =
      (parseUser (trimmed value.toList) defaultUser).bind fun (name, rest) =>
        (parseAddress rest).bind fun (host, port) =>
          if host.isEmpty then .error (.invalidInput "jump host cannot be empty")
          else .ok ⟨String.ofList host, port, name, none⟩ := by
  unfold parse
  cases parseUser (trimmed value.toList) defaultUser with
  | error f => rfl
  | ok found =>
    obtain ⟨name, rest⟩ := found
    cases haddress : parseAddress rest with
    | error f => simp only [Except.bind, bind, haddress]
    | ok found =>
      obtain ⟨host, port⟩ := found
      simp only [Except.bind, bind, haddress]
      cases host <;> rfl

/-- **A text is read as a jump host** just if it spells it, blanks at its ends apart. -/
theorem parse_eq_ok_iff :
    parse value defaultUser = .ok j ↔ Spells defaultUser (trimmed value.toList) j := by
  rw [parse_eq]
  generalize trimmed value.toList = s
  constructor
  · intro h
    obtain ⟨⟨name, rest⟩, huser, h⟩ := bind_eq_ok_iff.mp h
    obtain ⟨⟨host, port⟩, haddress, h⟩ := bind_eq_ok_iff.mp h
    have ha := parseAddress_eq_ok_iff.mp haddress
    obtain ⟨hat, hsplit⟩ := parseUser_eq_ok_iff.mp huser
    have hhost : '@' ∉ host := ha.at_notMem_iff.mp hat
    dsimp only at h
    split at h
    · cases h
    · next hempty =>
      cases h
      have hne : host ≠ [] := by simpa using hempty
      obtain ⟨rfl, rfl⟩ | ⟨u, hu, rfl, rfl⟩ := hsplit
      · exact .alone ha hne hhost
      · exact .byUser hu ha hne hhost
  · intro h
    cases h with
    | @alone _ host port ha hne hat =>
      have huser : parseUser s defaultUser = .ok (defaultUser, s) :=
        parseUser_eq_ok_iff.mpr ⟨ha.at_notMem_iff.mpr hat, .inl ⟨rfl, rfl⟩⟩
      have haddress : parseAddress s = .ok (host, port) := parseAddress_eq_ok_iff.mpr ha
      simp [huser, haddress, hne, Except.bind]
    | @byUser u a host port hu ha hne hat =>
      have huser : parseUser (u ++ '@' :: a) defaultUser = .ok (String.ofList u, a) :=
        parseUser_eq_ok_iff.mpr ⟨ha.at_notMem_iff.mpr hat, .inr ⟨u, hu, rfl, rfl⟩⟩
      have haddress : parseAddress a = .ok (host, port) := parseAddress_eq_ok_iff.mpr ha
      simp [huser, haddress, hne, Except.bind]

/-- **A text that is not read** is invalid input. -/
theorem parse_invalid (h : parse value defaultUser = .error f) :
    ∃ reason, f = .invalidInput reason := by
  rw [parse_eq] at h
  rcases bind_eq_error_iff.mp h with huser | ⟨⟨name, rest⟩, -, h⟩
  · exact parseUser_invalid huser
  · rcases bind_eq_error_iff.mp h with haddress | ⟨⟨host, port⟩, -, h⟩
    · exact parseAddress_invalid haddress
    · dsimp only at h
      split at h
      · exact ⟨_, (Except.error.inj h).symm⟩
      · cases h

end Hop

/-! ## The text of an account -/

namespace Login

variable {k : Login}

/-- The text of an account from the left: the user, the host and the digits of the port. -/
theorem toList_text (k : Login) :
    k.text.toList =
      k.user.toList ++ '@' :: (k.host.toList ++ ':' :: Nat.toDigits 10 k.port.toNat) := by
  simp only [text, String.toList_append, List.append_assoc]
  rw [Nat.toString_eq_repr, Nat.toList_repr]
  rfl

/-- The text of an account ends with a digit, so it is trimmed as it stands unless the user begins
with a blank. -/
theorem trimmed_text (hne : k.user ≠ "")
    (hfirst : ∀ c, k.user.toList.head? = some c → Text.isBlank c = false) :
    trimmed k.text.toList = k.text.toList := by
  have huser : k.user.toList ≠ [] := by simpa using hne
  rw [toList_text]
  refine Text.trimmed_eq_self (fun c hc => ?_) (fun c hc => ?_)
  · rw [List.head?_append_of_ne_nil _ huser] at hc
    exact hfirst c hc
  · have hdigits := Nat.toDigits_ne_nil (n := k.port.toNat) (b := 10)
    have hlast : (Nat.toDigits 10 k.port.toNat).getLast? = some c := by
      rwa [List.append_cons, ← List.append_assoc, List.append_cons,
        List.getLast?_append_of_ne_nil _ hdigits] at hc
    exact Text.isBlank_of_isDigit
      (Nat.isDigit_of_mem_toDigits (by decide) (by decide) (List.mem_of_getLast? hlast))

/-- **The text of an account** spells it. -/
theorem spells_text (defaultUser : String) (hu : k.user ≠ "") (hh : k.host ≠ "")
    (hat : '@' ∉ k.host.toList) (hport : k.port ≠ 0) :
    Hop.Spells defaultUser k.text.toList ⟨k.host, k.port, k.user, none⟩ := by
  have hrange := (checkPort_eq_ok_iff.mp (checkPort_toNat hport)).1
  have ha := Hop.Address.withPort (h := k.host.toList) (Text.numeral_toDigits k.port.toNat) hrange
  have hspells : Hop.Spells defaultUser (k.user.toList ++ '@' :: _) _ :=
    .byUser (by simpa using hu) ha (by simpa using hh) hat
  rwa [← toList_text, UInt16.ofNat_toNat, String.ofList_toList, String.ofList_toList] at hspells

end Login

namespace Hop

/-- **The grammar of jump hosts**.  A text is read just if it spells a jump host, blanks at its
ends apart, and as the one that it spells; every other text is invalid input.  So the text of an
account is read as the account, if its user does not begin with a blank and its host has no `@`. -/
theorem parse_exact (value defaultUser : String) :
    (∀ j, parse value defaultUser = .ok j ↔ Spells defaultUser (trimmed value.toList) j) ∧
    ((∀ j, ¬ Spells defaultUser (trimmed value.toList) j) →
      ∃ reason, parse value defaultUser = .error (.invalidInput reason)) ∧
    ∀ k : Login, k.user ≠ "" → (∀ c, k.user.toList.head? = some c → Text.isBlank c = false) →
      k.host ≠ "" → '@' ∉ k.host.toList → k.port ≠ 0 →
      parse k.text defaultUser = .ok ⟨k.host, k.port, k.user, none⟩ := by
  refine ⟨fun j => parse_eq_ok_iff, fun hnone => ?_, fun k hu hfirst hh hat hport => ?_⟩
  · cases hparse : parse value defaultUser with
    | ok j => exact absurd (parse_eq_ok_iff.mp hparse) (hnone j)
    | error f =>
      obtain ⟨reason, rfl⟩ := parse_invalid hparse
      exact ⟨reason, rfl⟩
  · rw [parse_eq_ok_iff, k.trimmed_text hu hfirst]
    exact k.spells_text defaultUser hu hh hat hport

/-- A user with an `@` and a host with colons are read back; a host that is missing is refused. -/
theorem parse_account_with_separators :
    (∀ c, "a@b".toList.head? = some c → Text.isBlank c = false) ∧ '@' ∉ "fd00::7".toList ∧
    parse (Login.text ⟨"a@b", "fd00::7", 2022⟩) "root" = .ok ⟨"fd00::7", 2022, "a@b", none⟩ ∧
    (∀ j, ¬ Spells "root" (trimmed " ops@:22 ".toList) j) ∧
    ∃ reason, parse " ops@:22 " "root" = .error (.invalidInput reason) := by
  have hfirst : ∀ c, "a@b".toList.head? = some c → Text.isBlank c = false := by
    intro c hc
    have heq : c = 'a' := by simpa using hc.symm
    rw [heq]
    rfl
  have hnone : ∀ j, ¬ Spells "root" (trimmed " ops@:22 ".toList) j := by
    intro j h
    have hparse := ((parse_exact " ops@:22 " "root").1 j).mpr h
    have hrefused : parse " ops@:22 " "root" =
      .error (.invalidInput "jump host cannot be empty") := rfl
    rw [hrefused] at hparse
    cases hparse
  exact ⟨hfirst, by decide,
    (parse_exact "" "root").2.2 ⟨"a@b", "fd00::7", 2022⟩ (by decide) hfirst (by decide) (by decide)
      (by decide), hnone, (parse_exact " ops@:22 " "root").2.1 hnone⟩

end Hop

end RemoteShell
