import RemoteShell.Credential.Search
import RemoteShell.Proofs.Dialogue.Plays
import RemoteShell.Proofs.Vault.Names

/-!
# Whoever answers a search

A search for credentials asks key files, agents, an operator and a store of secrets.  The key files
stay as they are.  Agents and operators may do as they like: what they say may depend on everything
that was asked before.  Of a store nothing is taken for granted either: what it finds under a name
may be any function of all that was stored so far.  A store that keeps what it is given is faithful.
A vault is a store, and it is faithful if and only if it remembers anything.

## Main definitions

* `prompts`, `fetched`, `stored`: questions of one kind
* `Store`, `Faithful`, `Vault.after`: stores of secrets, and vaults among them
* `Surroundings`, `Surroundings.answer`: whoever answers the questions of a search

## Main results

* `faithful_after_iff`: which vaults are faithful
-/

namespace RemoteShell

namespace Credential

/-! ## Questions of one kind -/

/-- The message of a prompt. -/
@[simp] def Query.prompt? : Query → Option String
  | .prompt message => some message
  | _ => none

/-- The name that is looked up. -/
@[simp] def Query.fetched? : Query → Option String
  | .fetch name => some name
  | _ => none

/-- What is stored, with its name. -/
@[simp] def Query.stored? : Query → Option (String × String)
  | .store name secret => some (name, secret)
  | _ => none

/-- **The prompts** among some questions. -/
def prompts (l : List Query) : List String := l.filterMap Query.prompt?

/-- **The names that are looked up** by some questions. -/
def fetched (l : List Query) : List String := l.filterMap Query.fetched?

/-- **What is stored** by some questions, in order. -/
def stored (l : List Query) : List (String × String) := l.filterMap Query.stored?

@[simp] theorem prompts_append (l l' : List Query) : prompts (l ++ l') = prompts l ++ prompts l' :=
  List.filterMap_append

@[simp] theorem fetched_append (l l' : List Query) : fetched (l ++ l') = fetched l ++ fetched l' :=
  List.filterMap_append

@[simp] theorem stored_append (l l' : List Query) : stored (l ++ l') = stored l ++ stored l' :=
  List.filterMap_append

@[simp] theorem prompts_cons (q : Query) (l : List Query) :
    prompts (q :: l) = q.prompt?.toList ++ prompts l := by
  rw [prompts, List.filterMap_cons]
  cases q.prompt? <;> rfl

@[simp] theorem fetched_cons (q : Query) (l : List Query) :
    fetched (q :: l) = q.fetched?.toList ++ fetched l := by
  rw [fetched, List.filterMap_cons]
  cases q.fetched? <;> rfl

@[simp] theorem stored_cons (q : Query) (l : List Query) :
    stored (q :: l) = q.stored?.toList ++ stored l := by
  rw [stored, List.filterMap_cons]
  cases q.stored? <;> rfl

@[simp] theorem prompts_nil : prompts [] = [] := rfl

@[simp] theorem fetched_nil : fetched [] = [] := rfl

@[simp] theorem stored_nil : stored [] = [] := rfl

@[simp] theorem prompts_map_fetch (names : List String) : prompts (names.map .fetch) = [] := by
  induction names with
  | nil => rfl
  | cons name names ih => exact ih

@[simp] theorem fetched_map_fetch (names : List String) :
    fetched (names.map .fetch) = names := by
  induction names with
  | nil => rfl
  | cons name names ih => exact congrArg (name :: ·) ih

@[simp] theorem stored_map_fetch (names : List String) : stored (names.map .fetch) = [] := by
  induction names with
  | nil => rfl
  | cons name names ih => exact ih

/-! ## Stores -/

/-- A store of secrets: what is found under a name, after all that was stored. -/
abbrev Store : Type := List (String × String) → String → Option String

/-- **A store is faithful**: it keeps the latest secret that was stored under a name, and a secret
under another name changes nothing. -/
def Faithful (v : Store) : Prop :=
  ∀ kept name secret other,
    v (kept ++ [(name, secret)]) other = if other = name then some secret else v kept other

end Credential

open Credential

/-- **A vault as a store.** -/
def Vault.after (v : Vault) : Store := fun kept name =>
  (kept.foldl (fun v x => v.set x.1 x.2) v).get? name

theorem Vault.remembers_foldl_set (v : Vault) (kept : List (String × String)) :
    (kept.foldl (fun v x => v.set x.1 x.2) v).remembers = v.remembers := by
  induction kept generalizing v with
  | nil => rfl
  | cons x kept ih =>
    rw [List.foldl_cons, ih, Vault.set]
    split <;> rfl

/-- **A vault is faithful if and only if it remembers anything.** -/
theorem Vault.faithful_after_iff {v : Vault} : Faithful v.after ↔ v.remembers = true := by
  constructor
  · intro h
    have hfound : v.after [("", "")] "" = some "" := h [] "" "" ""
    by_contra hforgets
    simp [Vault.after, Vault.get?, Vault.set, hforgets] at hfound
  · intro hv kept name secret other
    have hkept := (v.remembers_foldl_set kept).trans hv
    simp only [Vault.after, List.foldl_append, List.foldl_cons, List.foldl_nil]
    split
    · next hname => rw [hname, Secret.get?_set_self hkept]
    · next hname => rw [Secret.get?_set_of_ne _ _ (Ne.symm hname)]

namespace Credential

/-! ## Answers -/

/-- **Whoever answers a search**: the key files, and others who know what was asked before. -/
structure Surroundings where
  files : String → KeyFile
  holdsKeys : List Query → String → Bool
  secret : List Query → String → Option String
  choice : List Query → String → String → Option Choice
  store : Store

namespace Surroundings

/-- The answer to a question, after others. -/
def answer (w : Surroundings) (asked : List Query) : (q : Query) → q.Answer
  | .agent socket => w.holdsKeys asked socket
  | .read path => w.files path
  | .fetch name => w.store (stored asked) name
  | .store .. => ()
  | .prompt message => w.secret asked message
  | .choose host user => w.choice asked host user

/-- What the operator says to a prompt; an empty answer is none. -/
def said (w : Surroundings) (asked : List Query) (message : String) : Option String :=
  (w.secret asked message).filter (!·.isEmpty)

end Surroundings

end Credential

end RemoteShell
