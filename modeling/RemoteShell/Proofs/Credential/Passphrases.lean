import Mathlib.Data.List.Nodup
import RemoteShell.Proofs.Credential.Precedence

/-!
# Passphrases of key files

A key file that needs a passphrase is opened with the one stored for its path, else with the one
stored for the host, else with what the operator says to the only prompt; the first of them that
opens the file is stored under both names.  Nothing is stored that does not open it.

What a store makes of this is its own affair.  In a faithful one the passphrase is found from then
on, so loading the file again takes no prompt, for whatever host; in particular the operator is not
asked twice for a key that the jump host and the target share.  A store that forgets is put up with,
and the operator is asked again.

## Main definitions

* `kept`, `said`, `candidates`: the passphrases that may be tried
* `Opening`: the ways to open a key file
* `Recovers`: what becomes of a key file that needs a passphrase

## Main results

* `opening_load`: what loading does with a key file that needs a passphrase
* `load_of_held`: a file whose passphrase is stored for its path
* `passphrases_recovered`: the contract of loading, once and again
-/

namespace RemoteShell.Credential

variable {w : Surroundings} {asked l : List Query} {path host : String}
  {unlock : String → Except String (String × String)} {r : Except Fault Key}

/-! ## One key file -/

/-- A passphrase opens a key file. -/
def opens (unlock : String → Except String (String × String)) (s : String) : Bool :=
  match unlock s with
  | .ok _ => true
  | .error _ => false

/-- The passphrases that are stored for a key file, the one of its path before the one of the
host. -/
def kept (w : Surroundings) (asked : List Query) (path host : String) : List String :=
  (passphraseNames path host).filterMap (w.store (stored asked))

/-- What the operator says to the prompt for a passphrase. -/
def said (w : Surroundings) (asked : List Query) (path host : String) : Option String :=
  w.said (asked ++ .read path :: (passphraseNames path host).map .fetch)
    ("Enter passphrase for key " ++ path)

/-- **The passphrases that may be tried**, in order. -/
def candidates (w : Surroundings) (asked : List Query) (path host : String) : List String :=
  kept w asked path host ++ (said w asked path host).toList

/-- A passphrase is stored for a path and for a host. -/
def writes (path host s : String) : List Query :=
  (passphraseNames path host).map (.store · s)

@[simp] theorem prompts_writes (path host s : String) : prompts (writes path host s) = [] := rfl

@[simp] theorem fetched_writes (path host s : String) : fetched (writes path host s) = [] := rfl

@[simp] theorem stored_writes (path host s : String) :
    stored (writes path host s) = (passphraseNames path host).map (·, s) := rfl

/-- **The ways to open a key file** that needs a passphrase, with the questions and the result. -/
inductive Opening (w : Surroundings) (asked : List Query) (path host : String)
    (unlock : String → Except String (String × String)) :
    List Query → Except Fault Key → Prop where
  | stored {before after : List String} {name s algorithm comment : String}
    (hnames : passphraseNames path host = before ++ name :: after)
    (hbefore : ∀ s ∈ before.filterMap (w.store (stored asked)), opens unlock s = false)
    (hname : w.store (stored asked) name = some s) (hs : unlock s = .ok (algorithm, comment)) :
    Opening w asked path host unlock
      (.read path :: ((before ++ [name]).map .fetch ++ writes path host s))
      (.ok ⟨path, algorithm, comment⟩)
  | said {s algorithm comment : String}
    (hkept : ∀ s ∈ kept w asked path host, opens unlock s = false)
    (hsaid : said w asked path host = some s) (hs : unlock s = .ok (algorithm, comment)) :
    Opening w asked path host unlock
      (.read path :: ((passphraseNames path host).map .fetch ++
        .prompt ("Enter passphrase for key " ++ path) :: writes path host s))
      (.ok ⟨path, algorithm, comment⟩)
  | refused {s reason : String} (hkept : ∀ s ∈ kept w asked path host, opens unlock s = false)
    (hsaid : said w asked path host = some s) (hs : unlock s = .error reason) :
    Opening w asked path host unlock
      (.read path :: ((passphraseNames path host).map .fetch ++
        [.prompt ("Enter passphrase for key " ++ path)]))
      (.error (.key path ("incorrect passphrase: " ++ reason)))
  | declined (hkept : ∀ s ∈ kept w asked path host, opens unlock s = false)
    (hsaid : said w asked path host = none) :
    Opening w asked path host unlock
      (.read path :: ((passphraseNames path host).map .fetch ++
        [.prompt ("Enter passphrase for key " ++ path)]))
      (.error (.key path "key is encrypted and no passphrase was provided"))

/-- A stored passphrase that opens the file is not looked further for. -/
theorem play_tryStored_of_opens {name s algorithm comment : String} (names : List String)
    (hname : w.store (stored asked) name = some s) (hs : unlock s = .ok (algorithm, comment)) :
    (tryStored unlock path host (name :: names)).play w.answer asked =
      (.fetch name :: writes path host s, some ⟨path, algorithm, comment⟩) := by
  rw [tryStored, Talk.fetch, Dialogue.play_question_bind, Surroundings.answer, hname]
  simp only [hs]
  rfl

/-- A name under which nothing is stored that opens the file is passed over. -/
theorem play_tryStored_of_not {name : String} (names : List String)
    (hname : ∀ s ∈ w.store (stored asked) name, opens unlock s = false) :
    (tryStored unlock path host (name :: names)).play w.answer asked =
      (.fetch name ::
          ((tryStored unlock path host names).play w.answer (asked ++ [.fetch name])).1,
        ((tryStored unlock path host names).play w.answer (asked ++ [.fetch name])).2) := by
  rw [tryStored, Talk.fetch, Dialogue.play_question_bind, Surroundings.answer]
  cases hstored : w.store (stored asked) name with
  | none => rfl
  | some s =>
    have hs := hname s hstored
    unfold opens at hs
    cases hunlock : unlock s with
    | ok x => simp [hunlock] at hs
    | error reason => simp only [hunlock]

/-- **Trying the stored passphrases**: one of them opens the file, or none of them does. -/
theorem play_tryStored (unlock : String → Except String (String × String)) (path host : String)
    (names : List String) (asked : List Query) :
    (∃ before name after s algorithm comment, names = before ++ name :: after ∧
        (∀ s ∈ before.filterMap (w.store (stored asked)), opens unlock s = false) ∧
        w.store (stored asked) name = some s ∧ unlock s = .ok (algorithm, comment) ∧
        (tryStored unlock path host names).play w.answer asked =
          ((before ++ [name]).map .fetch ++ writes path host s, some ⟨path, algorithm, comment⟩)) ∨
      (∀ s ∈ names.filterMap (w.store (stored asked)), opens unlock s = false) ∧
        (tryStored unlock path host names).play w.answer asked = (names.map .fetch, none) := by
  induction names generalizing asked with
  | nil => exact .inr ⟨List.forall_mem_nil _, rfl⟩
  | cons name names ih =>
    by_cases hname : ∀ s ∈ w.store (stored asked) name, opens unlock s = false
    · have hstored : stored (asked ++ [.fetch name]) = stored asked := by
        rw [stored_append]
        exact List.append_nil _
      have hcons (before : List String)
          (hbefore : ∀ s ∈ before.filterMap (w.store (stored asked)), opens unlock s = false) :
          ∀ s ∈ (name :: before).filterMap (w.store (stored asked)), opens unlock s = false := by
        intro s hs
        rw [List.filterMap_cons] at hs
        split at hs
        · exact hbefore s hs
        · next hfound =>
          rcases List.mem_cons.mp hs with rfl | hs
          · exact hname _ hfound
          · exact hbefore s hs
      have hrest := ih (asked ++ [.fetch name])
      rw [hstored] at hrest
      rw [play_tryStored_of_not names hname]
      rcases hrest with
        ⟨before, found, after, s, algorithm, comment, rfl, hbefore, hfound, hs, hplay⟩ |
          ⟨hnone, hplay⟩
      · exact .inl ⟨name :: before, found, after, s, algorithm, comment, rfl, hcons _ hbefore,
          hfound, hs, by rw [hplay]; rfl⟩
      · exact .inr ⟨hcons _ hnone, by rw [hplay]; rfl⟩
    · obtain ⟨s, hs, hopens⟩ : ∃ s, w.store (stored asked) name = some s ∧
          opens unlock s = true := by
        simpa using hname
      unfold opens at hopens
      cases hunlock : unlock s with
      | error reason => simp [hunlock] at hopens
      | ok x =>
        exact .inl ⟨[], name, names, s, x.1, x.2, rfl, List.forall_mem_nil _, hs, hunlock,
          play_tryStored_of_opens names hs hunlock⟩

/-- What the operator is asked once no stored passphrase opens the file. -/
def promptLocked (unlock : String → Except String (String × String)) (path host : String) :
    Talk (Except Fault Key) :=
  (Talk.prompt ("Enter passphrase for key " ++ path)).bind fun answer =>
    match answer.filter (!·.isEmpty) with
    | none => .done (.error (.key path "key is encrypted and no passphrase was provided"))
    | some s =>
      match unlock s with
      | .error reason => .done (.error (.key path ("incorrect passphrase: " ++ reason)))
      | .ok (algorithm, comment) =>
        (remember path host s).bind fun _ => .done (.ok ⟨path, algorithm, comment⟩)

theorem load_eq (path host : String) :
    load path host = (Talk.read path).bind fun file =>
      match file with
      | .missing => .done (.error (.key path "key file not found"))
      | .unreadable reason => .done (.error (.key path ("failed to load private key: " ++ reason)))
      | .plain algorithm comment => .done (.ok ⟨path, algorithm, comment⟩)
      | .locked unlock => (tryStored unlock path host (passphraseNames path host)).bind fun
        | some k => .done (.ok k)
        | none => promptLocked unlock path host := by
  refine congrArg (Dialogue.bind _) (funext fun file => ?_)
  cases file with
  | locked unlock => exact congrArg (Dialogue.bind _) (funext fun found => by cases found <;> rfl)
  | _ => rfl

theorem play_promptLocked (unlock : String → Except String (String × String))
    (path host : String) (asked : List Query) :
    (promptLocked unlock path host).play w.answer asked =
      match w.said asked ("Enter passphrase for key " ++ path) with
      | none => ([.prompt ("Enter passphrase for key " ++ path)],
          .error (.key path "key is encrypted and no passphrase was provided"))
      | some s =>
        match unlock s with
        | .error reason => ([.prompt ("Enter passphrase for key " ++ path)],
            .error (.key path ("incorrect passphrase: " ++ reason)))
        | .ok (algorithm, comment) =>
          (.prompt ("Enter passphrase for key " ++ path) :: writes path host s,
            .ok ⟨path, algorithm, comment⟩) := by
  rw [promptLocked, Talk.prompt, Dialogue.play_question_bind, Surroundings.answer,
    Surroundings.said]
  split
  · rfl
  · split <;> rfl

/-- **Loading a key file that needs a passphrase** opens it in one of the ways, or fails in one. -/
theorem opening_load (host : String) (asked : List Query) (hfile : w.files path = .locked unlock) :
    Opening w asked path host unlock ((load path host).play w.answer asked).1
      ((load path host).play w.answer asked).2 := by
  have hstored : stored (asked ++ [.read path]) = stored asked := by
    rw [stored_append]
    exact List.append_nil _
  have hsaid : w.said (asked ++ [.read path] ++ (passphraseNames path host).map .fetch)
      ("Enter passphrase for key " ++ path) = said w asked path host := by
    rw [said, List.append_assoc, List.singleton_append]
  have htried := play_tryStored (w := w) unlock path host (passphraseNames path host)
    (asked ++ [.read path])
  rw [hstored] at htried
  rw [load_eq, Talk.read, Dialogue.play_question_bind, Surroundings.answer, hfile]
  simp only [Dialogue.play_bind]
  rcases htried with
    ⟨before, name, after, s, algorithm, comment, hnames, hbefore, hname, hs, hplay⟩ |
      ⟨hnone, hplay⟩
  · rw [hplay, Dialogue.play_done, List.append_nil]
    exact .stored hnames hbefore hname hs
  · rw [hplay, play_promptLocked, hsaid]
    cases hanswer : said w asked path host with
    | none => exact .declined hnone hanswer
    | some s =>
      cases hunlock : unlock s with
      | error reason => simpa only [hunlock] using .refused hnone hanswer hunlock
      | ok x => simpa only [hunlock] using .said hnone hanswer hunlock

/-! ## What becomes of a key file -/

/-- **What becomes of a key file that needs a passphrase.**  The first passphrase that opens it is
stored under both names, and if there is none then nothing is stored. -/
structure Recovers (w : Surroundings) (asked : List Query) (path host : String)
    (unlock : String → Except String (String × String)) (l : List Query)
    (r : Except Fault Key) : Prop where
  fetched_eq : fetched l =
    if (w.store (stored asked) (Vault.passphraseOfPath path)).any (opens unlock) then
      [Vault.passphraseOfPath path]
    else [Vault.passphraseOfPath path, Vault.passphraseOfHost host]
  prompts_eq : prompts l =
    if (kept w asked path host).any (opens unlock) then []
    else ["Enter passphrase for key " ++ path]
  opened : ∀ s, (candidates w asked path host).find? (opens unlock) = some s →
    (∃ algorithm comment, unlock s = .ok (algorithm, comment) ∧
      r = .ok ⟨path, algorithm, comment⟩) ∧
    stored l = [(Vault.passphraseOfPath path, s), (Vault.passphraseOfHost host, s)]
  failed : (candidates w asked path host).find? (opens unlock) = none →
    (said w asked path host = none ∧
        r = .error (.key path "key is encrypted and no passphrase was provided") ∨
      ∃ s reason, said w asked path host = some s ∧ unlock s = .error reason ∧
        r = .error (.key path ("incorrect passphrase: " ++ reason))) ∧
    stored l = []

theorem opens_of_ok {s algorithm comment : String} (hs : unlock s = .ok (algorithm, comment)) :
    opens unlock s = true := by
  simp [opens, hs]

theorem opens_of_error {s reason : String} (hs : unlock s = .error reason) :
    opens unlock s = false := by
  simp [opens, hs]

/-- A stored passphrase opens the file, and the first such is `s`. -/
theorem find?_candidates_of_stored {before after : List String} {name s : String}
    (hnames : passphraseNames path host = before ++ name :: after)
    (hbefore : ∀ s ∈ before.filterMap (w.store (stored asked)), opens unlock s = false)
    (hname : w.store (stored asked) name = some s) (hs : opens unlock s = true) :
    (candidates w asked path host).find? (opens unlock) = some s ∧
      (kept w asked path host).any (opens unlock) = true := by
  have hkept : kept w asked path host = before.filterMap (w.store (stored asked)) ++
      s :: after.filterMap (w.store (stored asked)) := by
    rw [kept, hnames, List.filterMap_append, List.filterMap_cons_some hname]
  constructor
  · have hnone : (before.filterMap (w.store (stored asked))).find? (opens unlock) = none :=
      List.find?_eq_none.mpr fun s hs => by simp [hbefore s hs]
    rw [candidates, hkept, List.append_assoc, List.find?_append, hnone, Option.none_or]
    exact List.find?_cons_of_pos hs
  · exact List.any_eq_true.mpr ⟨s, hkept ▸ List.mem_append_right _ List.mem_cons_self, hs⟩

/-- No stored passphrase opens the file, and the operator is left. -/
theorem find?_candidates_of_kept (hkept : ∀ s ∈ kept w asked path host, opens unlock s = false) :
    (candidates w asked path host).find? (opens unlock) =
        (said w asked path host).toList.find? (opens unlock) ∧
      (kept w asked path host).any (opens unlock) = false := by
  have hnone : (kept w asked path host).find? (opens unlock) = none :=
    List.find?_eq_none.mpr fun s hs => by simp [hkept s hs]
  constructor
  · rw [candidates, List.find?_append, hnone, Option.none_or]
  · exact List.any_eq_false.mpr fun s hs => by simp [hkept s hs]

/-- None of some passphrases opens the file, so none that is stored under one of their names. -/
theorem any_store_of_forall {names : List String} {name : String} (hname : name ∈ names)
    (hnames : ∀ s ∈ names.filterMap (w.store (stored asked)), opens unlock s = false) :
    (w.store (stored asked) name).any (opens unlock) = false := by
  cases hstored : w.store (stored asked) name with
  | none => rfl
  | some s => exact hnames s (List.mem_filterMap.mpr ⟨name, hname, hstored⟩)

theorem Recovers.of_opened {s algorithm comment : String}
    (hfind : (candidates w asked path host).find? (opens unlock) = some s)
    (hs : unlock s = .ok (algorithm, comment))
    (hfetched : fetched l =
      if (w.store (stored asked) (Vault.passphraseOfPath path)).any (opens unlock) then
        [Vault.passphraseOfPath path]
      else passphraseNames path host)
    (hprompts : prompts l = if (kept w asked path host).any (opens unlock) then []
      else ["Enter passphrase for key " ++ path])
    (hstored : stored l = (passphraseNames path host).map (·, s)) :
    Recovers w asked path host unlock l (.ok ⟨path, algorithm, comment⟩) := by
  refine ⟨hfetched, hprompts, fun s' hs' => ?_, fun hnone => ?_⟩
  · cases hfind.symm.trans hs'
    exact ⟨⟨algorithm, comment, hs, rfl⟩, hstored⟩
  · simp [hfind] at hnone

theorem Recovers.of_failed (hfind : (candidates w asked path host).find? (opens unlock) = none)
    (hkept : ∀ s ∈ kept w asked path host, opens unlock s = false)
    (hr : said w asked path host = none ∧
        r = .error (.key path "key is encrypted and no passphrase was provided") ∨
      ∃ s reason, said w asked path host = some s ∧ unlock s = .error reason ∧
        r = .error (.key path ("incorrect passphrase: " ++ reason))) :
    Recovers w asked path host unlock
      (.read path :: ((passphraseNames path host).map .fetch ++
        [.prompt ("Enter passphrase for key " ++ path)])) r := by
  refine ⟨?_, ?_, fun s hs => ?_, fun _ => ⟨hr, ?_⟩⟩
  · simp [any_store_of_forall List.mem_cons_self hkept, passphraseNames]
  · simp [(find?_candidates_of_kept hkept).2]
  · simp [hfind] at hs
  · simp

/-- **The ways to open a key file**, seen from what they come to. -/
theorem Opening.recovers (h : Opening w asked path host unlock l r) :
    Recovers w asked path host unlock l r := by
  cases h with
  | @stored before after name s algorithm comment hnames hbefore hname hs =>
    obtain ⟨hfind, hany⟩ := find?_candidates_of_stored hnames hbefore hname (opens_of_ok hs)
    refine .of_opened hfind hs ?_ (by simp [hany]) (by simp)
    simp only [passphraseNames] at hnames
    match before with
    | [] =>
      obtain ⟨rfl, -⟩ := List.cons.inj hnames
      simp [hname, opens_of_ok hs]
    | [first] =>
      obtain ⟨rfl, hrest⟩ := List.cons.inj hnames
      obtain ⟨rfl, -⟩ := List.cons.inj hrest
      simp [any_store_of_forall List.mem_cons_self hbefore, passphraseNames]
    | _ :: _ :: _ => simp at hnames
  | @said s algorithm comment hkept hsaid hs =>
    obtain ⟨hfind, hany⟩ := find?_candidates_of_kept hkept
    refine .of_opened (s := s) ?_ hs ?_ (by simp [hany]) (by simp)
    · simp [hfind, hsaid, opens_of_ok hs]
    · simp [any_store_of_forall List.mem_cons_self hkept]
  | @refused s reason hkept hsaid hs =>
    refine .of_failed ?_ hkept (.inr ⟨s, reason, hsaid, hs, rfl⟩)
    simp [(find?_candidates_of_kept hkept).1, hsaid, opens_of_error hs]
  | declined hkept hsaid =>
    refine .of_failed ?_ hkept (.inl ⟨hsaid, rfl⟩)
    simp [(find?_candidates_of_kept hkept).1, hsaid]

theorem recovers_load (host : String) (asked : List Query)
    (hfile : w.files path = .locked unlock) :
    Recovers w asked path host unlock ((load path host).play w.answer asked).1
      ((load path host).play w.answer asked).2 :=
  (opening_load host asked hfile).recovers

theorem read_mem_load (path host : String) (asked : List Query) :
    .read path ∈ ((load path host).play w.answer asked).1 :=
  List.mem_cons_self

/-- **A key file that needs no passphrase**, or cannot be decoded, or is not there, is read and
nothing else is asked. -/
theorem load_of_not_locked (host : String) (asked : List Query)
    (hfile : ∀ unlock, w.files path ≠ .locked unlock) :
    ((load path host).play w.answer asked).1 = [.read path] := by
  rw [load_eq, Talk.read, Dialogue.play_question_bind, Surroundings.answer]
  cases hkind : w.files path with
  | locked unlock => exact absurd hkind (hfile unlock)
  | _ => rfl

/-- **A key file whose passphrase is stored for its path** is opened with it, for any host. -/
theorem load_of_held {s algorithm comment : String} (host : String)
    (hfile : w.files path = .locked unlock)
    (hheld : w.store (stored asked) (Vault.passphraseOfPath path) = some s)
    (hs : unlock s = .ok (algorithm, comment)) :
    prompts ((load path host).play w.answer asked).1 = [] ∧
      ((load path host).play w.answer asked).2 = .ok ⟨path, algorithm, comment⟩ := by
  have hrecovers := recovers_load host asked hfile
  have hnames : passphraseNames path host =
      [] ++ Vault.passphraseOfPath path :: [Vault.passphraseOfHost host] := rfl
  obtain ⟨hfind, hany⟩ := find?_candidates_of_stored hnames (List.forall_mem_nil _) hheld
    (opens_of_ok hs)
  obtain ⟨⟨algorithm', comment', hs', hr⟩, -⟩ := hrecovers.opened s hfind
  cases hs.symm.trans hs'
  exact ⟨by rw [hrecovers.prompts_eq, hany, if_pos rfl], hr⟩

/-! ## Stores that keep what they are given -/

/-- **A faithful store holds a passphrase under both names** once it is stored. -/
theorem Faithful.holds {v : Store} (hv : Faithful v) (before : List (String × String))
    (path host s : String) :
    ∀ name ∈ passphraseNames path host,
      v (before ++ (passphraseNames path host).map (·, s)) name = some s := by
  intro name hname
  have hsplit : before ++ (passphraseNames path host).map (·, s) =
      before ++ [(Vault.passphraseOfPath path, s)] ++ [(Vault.passphraseOfHost host, s)] := by
    rw [List.append_assoc]
    rfl
  rw [hsplit, hv, hv]
  rcases List.mem_cons.mp hname with rfl | hname
  · rw [if_pos rfl]
    split <;> rfl
  · rw [if_pos (List.mem_singleton.mp hname)]

/-- **Once a key file is open**, a faithful store holds its passphrase under both names. -/
theorem holds_of_load {k : Key} (hv : Faithful w.store) (hfile : w.files path = .locked unlock)
    (hk : ((load path host).play w.answer asked).2 = .ok k) :
    ∃ s, unlock s = .ok (k.algorithm, k.comment) ∧ k.path = path ∧
      ∀ name ∈ passphraseNames path host,
        w.store (stored (asked ++ ((load path host).play w.answer asked).1)) name = some s := by
  have hrecovers := recovers_load host asked hfile
  cases hfind : (candidates w asked path host).find? (opens unlock) with
  | none =>
    obtain ⟨⟨-, hr⟩ | ⟨_, _, -, -, hr⟩, -⟩ := hrecovers.failed hfind <;> simp [hr] at hk
  | some s =>
    obtain ⟨⟨algorithm, comment, hs, hr⟩, hstored⟩ := hrecovers.opened s hfind
    cases hr.symm.trans hk
    refine ⟨s, hs, rfl, fun name hname => ?_⟩
    rw [stored_append, hstored]
    exact hv.holds (stored asked) path host s name hname

/-! ## A target and its jump host -/

theorem prompts_filterMap_question? (xs : List Source) :
    prompts (xs.filterMap Source.question?) = [] := by
  induction xs with
  | nil => rfl
  | cons x xs ih =>
    rw [filterMap_question?, prompts_append, ih]
    cases x <;> rfl

theorem stored_filterMap_question? (xs : List Source) :
    stored (xs.filterMap Source.question?) = [] := by
  induction xs with
  | nil => rfl
  | cons x xs ih =>
    rw [filterMap_question?, stored_append, ih]
    cases x <;> rfl

/-- **One key file is loaded** at most, after questions that are no prompts and store nothing. -/
def LoadsOne (w : Surroundings) (host : String) (asked l : List Query) (r : Except Fault Offer) :
    Prop :=
  ∃ before rest, l = before ++ rest ∧ prompts before = [] ∧ stored before = [] ∧
    (rest = [] ∨ ∃ path, (rest, r) = Source.ofKeyFile w host path (asked ++ before))

section LoadsOne

variable {user : String} {xs : List Source} {r : Except Fault Offer}

theorem LoadsOne.none : LoadsOne w host asked [] r := ⟨[], [], rfl, rfl, rfl, .inl rfl⟩

theorem LoadsOne.of_load (h : (l, r) = Source.ofKeyFile w host path asked) :
    LoadsOne w host asked l r :=
  ⟨[], l, rfl, rfl, rfl, .inr ⟨path, by rw [List.append_nil, h]⟩⟩

theorem LoadsOne.behind {front : List Query} (hprompts : prompts front = [])
    (hstored : stored front = []) (h : LoadsOne w host (asked ++ front) l r) :
    LoadsOne w host asked (front ++ l) r := by
  obtain ⟨before, rest, rfl, hbefore, hnothing, hrest⟩ := h
  refine ⟨front ++ before, rest, (List.append_assoc ..).symm, ?_, ?_, ?_⟩
  · rw [prompts_append, hprompts, hbefore, List.append_nil]
  · rw [stored_append, hstored, hnothing, List.append_nil]
  · rwa [← List.append_assoc]

theorem loadsOne_of_outcome {x : Source} (h : (l, r) = x.outcome w host user asked) :
    LoadsOne w host asked l r := by
  cases x with
  | agent socket =>
    cases h
    exact .none
  | explicit path => exact .of_load h
  | standard path => exact .of_load h
  | choice =>
    have hchoose (l : List Query) (r : Except Fault Offer)
        (h : LoadsOne w host (asked ++ [.choose host user]) l r) :
        LoadsOne w host asked ([.choose host user] ++ l) r := h.behind rfl rfl
    simp only [Source.outcome, Source.ofChoice] at h
    split at h
    · cases h
      exact hchoose _ _ .none
    · cases h
      exact hchoose _ _ .none
    · cases h
      exact hchoose _ _ (.of_load rfl)
    · cases h
      exact hchoose _ _ .none

/-- **A search loads one key file at most.** -/
theorem DecidedBy.loadsOne (h : DecidedBy w host user asked xs l r) :
    LoadsOne w host asked l r := by
  obtain ⟨before, x, after, -, -, -, rest, rfl, hrest⟩ := h
  exact .behind (prompts_filterMap_question? _) (stored_filterMap_question? _)
    (loadsOne_of_outcome hrest)

/-- **What loading one key file prompts for**: its passphrase if anything, and not if one that opens
the file is stored for its path, as it is once the file was opened. -/
theorem LoadsOne.asks (h : LoadsOne w host asked l r) :
    prompts l = [] ∨ ∃ path unlock, .read path ∈ l ∧ w.files path = .locked unlock ∧
      prompts l = ["Enter passphrase for key " ++ path] ∧
      (∀ s, w.store (stored asked) (Vault.passphraseOfPath path) = some s →
        opens unlock s = false) ∧
      (Faithful w.store → ∀ o, r = .ok o → ∃ s, opens unlock s = true ∧
        w.store (stored (asked ++ l)) (Vault.passphraseOfPath path) = some s) := by
  obtain ⟨before, rest, rfl, hprompts, hstored, rfl | ⟨path, hrest⟩⟩ := h
  · exact .inl (by simp [hprompts])
  obtain ⟨rfl, hr⟩ := Prod.ext_iff.mp hrest
  dsimp only [Source.ofKeyFile] at hr
  simp only [Source.ofKeyFile, prompts_append, hprompts, List.nil_append]
  by_cases hfile : ∃ unlock, w.files path = .locked unlock
  · obtain ⟨unlock, hfile⟩ := hfile
    have hrecovers := recovers_load host (asked ++ before) hfile
    cases hany : (kept w (asked ++ before) path host).any (opens unlock) with
    | true => exact .inl (by rw [hrecovers.prompts_eq, hany, if_pos rfl])
    | false =>
      refine .inr ⟨path, unlock, List.mem_append_right _ (read_mem_load path host _), hfile, ?_,
        fun s hs => ?_, fun hv o ho => ?_⟩
      · rw [hrecovers.prompts_eq, hany]
        rfl
      · have hkept : s ∈ kept w (asked ++ before) path host := by
          refine List.mem_filterMap.mpr ⟨_, List.mem_cons_self, ?_⟩
          rw [stored_append, hstored, List.append_nil, hs]
        exact eq_false_of_ne_true (List.any_eq_false.mp hany s hkept)
      · cases hk : ((load path host).play w.answer (asked ++ before)).2 with
        | error f => simp [hr, hk, Except.map] at ho
        | ok k =>
          obtain ⟨s, hs, -, hholds⟩ := holds_of_load hv hfile hk
          refine ⟨s, opens_of_ok hs, ?_⟩
          rw [← List.append_assoc]
          exact hholds _ List.mem_cons_self
  · rw [load_of_not_locked host _ fun unlock hunlock => hfile ⟨unlock, hunlock⟩]
    exact .inl rfl

end LoadsOne

/-- The prompts of questions that load one key file name that file, and come once. -/
theorem LoadsOne.once {r : Except Fault Offer} (h : LoadsOne w host asked l r) :
    (prompts l).Nodup ∧ ∀ message ∈ prompts l, ∃ path, .read path ∈ l ∧
      message = "Enter passphrase for key " ++ path := by
  rcases h.asks with hnone | ⟨path, -, hread, -, hone, -, -⟩
  · rw [hnone]
    exact ⟨List.nodup_nil, List.forall_mem_nil _⟩
  · rw [hone]
    exact ⟨List.nodup_singleton _, fun message hmessage =>
      ⟨path, hread, List.mem_singleton.mp hmessage⟩⟩

/-- **Two key files after each other**: no prompt for the second repeats the one for the first, in a
faithful store and if the first was opened. -/
theorem LoadsOne.not_again {host' : String} {l' : List Query} {o : Offer}
    {r : Except Fault Offer} (hv : Faithful w.store) (h : LoadsOne w host asked l (.ok o))
    (h' : LoadsOne w host' (asked ++ l) l' r) : (prompts l).Disjoint (prompts l') := by
  rcases h.asks with hnone | ⟨path, unlock, -, hfile, hone, -, hholds⟩
  · rw [hnone]
    exact List.disjoint_nil_left _
  rcases h'.asks with hnone | ⟨path', unlock', -, hfile', hone', hnothing, -⟩
  · rw [hnone]
    exact List.disjoint_nil_right _
  rw [hone, hone', List.singleton_disjoint, List.mem_singleton]
  intro hsame
  obtain rfl := String.append_right_inj _ |>.mp hsame
  obtain ⟨s, hopens, hs⟩ := hholds hv o rfl
  cases hfile.symm.trans hfile'
  exact Bool.false_ne_true ((hnothing s hs).symm.trans hopens)

/-- **The operator is asked once** for the passphrase of a key file, also if the jump host and the
target share it. -/
theorem prompts_resolve (hv : Faithful w.store) (s : CredentialSettings) (e : Environment)
    (host user : String) (keyPath : Option String) (hop : Option Hop) (asked : List Query) :
    (prompts ((resolve s e host user keyPath hop).play w.answer asked).1).Nodup ∧
      ∀ message ∈ prompts ((resolve s e host user keyPath hop).play w.answer asked).1,
        ∃ path, .read path ∈ ((resolve s e host user keyPath hop).play w.answer asked).1 ∧
          message = "Enter passphrase for key " ++ path := by
  have hsearch (host user : String) (keyPath : Option String) (asked : List Query) :=
    (search_decided s e host user keyPath w asked).loadsOne
  cases hop with
  | none =>
    rw [play_resolve_none]
    exact (hsearch host user keyPath asked).once
  | some j =>
    have hjump := hsearch j.host j.user j.keyPath asked
    cases hresult : ((search s e j.host j.user j.keyPath).play w.answer asked).2 with
    | error f =>
      rw [play_resolve_of_error hresult]
      exact hjump.once
    | ok h =>
      have htarget := hsearch host user keyPath
        (asked ++ ((search s e j.host j.user j.keyPath).play w.answer asked).1)
      rw [hresult] at hjump
      obtain ⟨hnodup, hnamed⟩ := hjump.once
      obtain ⟨hnodup', hnamed'⟩ := htarget.once
      rw [play_resolve_of_ok (Prod.ext rfl hresult)]
      simp only [prompts_append, List.mem_append]
      refine ⟨hnodup.append hnodup' (hjump.not_again hv htarget), fun m hm => ?_⟩
      rcases hm with hm | hm
      · obtain ⟨path, hread, hmessage⟩ := hnamed m hm
        exact ⟨path, .inl hread, hmessage⟩
      · obtain ⟨path, hread, hmessage⟩ := hnamed' m hm
        exact ⟨path, .inr hread, hmessage⟩

/-! ## The contract of loading -/

/-- **Passphrases are recovered.**  Of a key file that needs none, nothing is asked but the file.
For one that needs it, the stored passphrases and then the operator are tried in order, and only one
that opens the file is stored.  A faithful store then holds it under both names, so the file is
opened again without a prompt, for any host and whatever else became of the store, and one search
for a target and its jump host prompts for it once.  A vault is faithful if it remembers. -/
theorem passphrases_recovered (w : Surroundings) (asked : List Query) (path host : String) :
    ((∀ unlock, w.files path ≠ .locked unlock) →
        ((load path host).play w.answer asked).1 = [.read path]) ∧
      (∀ unlock, w.files path = .locked unlock →
        Recovers w asked path host unlock ((load path host).play w.answer asked).1
          ((load path host).play w.answer asked).2) ∧
      (Faithful w.store → ∀ unlock k, w.files path = .locked unlock →
        ((load path host).play w.answer asked).2 = .ok k →
          (∃ s, unlock s = .ok (k.algorithm, k.comment) ∧
            ∀ name ∈ [Vault.passphraseOfPath path, Vault.passphraseOfHost host],
              w.store (stored (asked ++ ((load path host).play w.answer asked).1)) name =
                some s) ∧
          ∀ (w' : Surroundings) (asked' : List Query) (host' : String),
            w'.files path = w.files path →
            w'.store (stored asked') (Vault.passphraseOfPath path) =
              w.store (stored (asked ++ ((load path host).play w.answer asked).1))
                (Vault.passphraseOfPath path) →
            prompts ((load path host').play w'.answer asked').1 = [] ∧
              ((load path host').play w'.answer asked').2 = .ok k) ∧
      (Faithful w.store → ∀ (s : CredentialSettings) (e : Environment) (user : String)
          (keyPath : Option String) (hop : Option Hop),
        (prompts ((resolve s e host user keyPath hop).play w.answer asked).1).Nodup ∧
          ∀ message ∈ prompts ((resolve s e host user keyPath hop).play w.answer asked).1,
            ∃ path, .read path ∈ ((resolve s e host user keyPath hop).play w.answer asked).1 ∧
              message = "Enter passphrase for key " ++ path) ∧
      ∀ v : Vault, Faithful v.after ↔ v.remembers = true := by
  refine ⟨load_of_not_locked host asked, fun unlock => recovers_load host asked,
    fun hv unlock k hfile hk => ?_,
    fun hv s e user keyPath hop => prompts_resolve hv s e host user keyPath hop asked,
    fun v => Vault.faithful_after_iff⟩
  obtain ⟨s, hs, hpath, hholds⟩ := holds_of_load hv hfile hk
  refine ⟨⟨s, hs, hholds⟩, fun w' asked' host' hfile' hheld => ?_⟩
  obtain ⟨hprompts, hagain⟩ := load_of_held host' (hfile'.trans hfile)
    (hheld.trans (hholds _ List.mem_cons_self)) hs
  exact ⟨hprompts, hagain.trans (congrArg Except.ok (by rw [← hpath]))⟩

/-- What one passphrase does with a key file. -/
def unlockFixture (s : String) : Except String (String × String) :=
  if s = "correct horse" then .ok ("ssh-ed25519", "fixture-encrypted")
  else .error "cryptographic error"

/-- A key file at every path, an operator who knows its passphrase, and a vault. -/
def knowingOperator (v : Vault) : Surroundings where
  files _ := .locked unlockFixture
  holdsKeys _ _ := false
  secret _ _ := some "correct horse"
  choice _ _ _ := none
  store := v.after

/-- The operator is asked for the first host and no more for the second one. -/
theorem passphrase_recovered_for_second_host :
    prompts ((load "id" "db-01").play (knowingOperator ⟨true, []⟩).answer []).1 =
        ["Enter passphrase for key id"] ∧
      (∃ s, unlockFixture s = .ok ("ssh-ed25519", "fixture-encrypted") ∧
        ∀ name ∈ [Vault.passphraseOfPath "id", Vault.passphraseOfHost "db-01"],
          (knowingOperator ⟨true, []⟩).store (stored ([] ++
            ((load "id" "db-01").play (knowingOperator ⟨true, []⟩).answer []).1)) name = some s) ∧
      prompts ((load "id" "db-02").play (knowingOperator ⟨true, []⟩).answer
        ([] ++ ((load "id" "db-01").play (knowingOperator ⟨true, []⟩).answer []).1)).1 = [] := by
  obtain ⟨-, hlocked, hkept, -, hvault⟩ :=
    passphrases_recovered (knowingOperator ⟨true, []⟩) [] "id" "db-01"
  obtain ⟨hholds, hlater⟩ := hkept ((hvault ⟨true, []⟩).mpr rfl) unlockFixture
    ⟨"id", "ssh-ed25519", "fixture-encrypted"⟩ rfl rfl
  exact ⟨(hlocked unlockFixture rfl).prompts_eq, hholds, (hlater _ _ "db-02" rfl rfl).1⟩

/-- **A vault that remembers nothing** holds no passphrase, also of a key file that was opened. -/
theorem passphrase_forgotten :
    ((load "id" "db-01").play (knowingOperator ⟨false, []⟩).answer []).2 =
        .ok ⟨"id", "ssh-ed25519", "fixture-encrypted"⟩ ∧
      ∀ name ∈ [Vault.passphraseOfPath "id", Vault.passphraseOfHost "db-01"],
        (knowingOperator ⟨false, []⟩).store (stored
          ((load "id" "db-01").play (knowingOperator ⟨false, []⟩).answer []).1) name = none := by
  refine ⟨rfl, fun name hname => rfl⟩

end RemoteShell.Credential
