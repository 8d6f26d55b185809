import RemoteShell.Credential.Search
import RemoteShell.Proofs.Dialogue.Questions

/-!
# What loading a key file asks

A key file is loaded for one path and one host.  The only secret that is asked for is its
passphrase: it is looked up and stored under the path and under the host, and the one prompt that
may be shown names the path.

## Main definitions

* `Query.secret?`: the name of the secret that a question is about
* `Query.Concerns`: a question about one key file and one host

## Main results

* `all_load`: the contract of loading
-/

namespace RemoteShell.Credential

variable {path host : String} {unlock : String → Except String (String × String)}

/-- The names under which a passphrase is kept. -/
def passphraseNames (path host : String) : List String :=
  [Vault.passphraseOfPath path, Vault.passphraseOfHost host]

/-- The name of the secret that a question is about. -/
def Query.secret? : Query → Option String
  | .fetch name | .store name _ => some name
  | _ => none

/-- **A question about one key file** and the host that it is loaded for. -/
inductive Query.Concerns (path host : String) : Query → Prop where
  | read : Concerns path host (.read path)
  | prompt : Concerns path host (.prompt ("Enter passphrase for key " ++ path))
  | fetch {name : String} (hname : name ∈ passphraseNames path host) :
    Concerns path host (.fetch name)
  | store {name : String} (hname : name ∈ passphraseNames path host) (s : String) :
    Concerns path host (.store name s)

theorem within_remember (path host s : String) :
    (remember path host s).Within (Query.Concerns path host) fun _ => True := by
  have hpath : Vault.passphraseOfPath path ∈ passphraseNames path host := List.mem_cons_self
  have hhost : Vault.passphraseOfHost host ∈ passphraseNames path host :=
    List.mem_cons_of_mem _ List.mem_cons_self
  exact Dialogue.Within.bind (.question (.store hpath s)) fun _ _ => .question (.store hhost s)

theorem within_tryStored (names : List String)
    (hnames : ∀ name ∈ names, name ∈ passphraseNames path host) :
    (tryStored unlock path host names).Within (Query.Concerns path host) fun _ => True := by
  induction names with
  | nil => exact trivial
  | cons name names ih =>
    obtain ⟨hname, hrest⟩ := List.forall_mem_cons.mp hnames
    rw [tryStored]
    refine Dialogue.Within.bind (.question (.fetch hname)) fun stored _ => ?_
    cases stored with
    | none => exact ih hrest
    | some passphrase =>
      dsimp only
      split
      · exact ih hrest
      · exact (within_remember path host passphrase).bind fun _ _ => trivial

theorem within_openLocked (unlock : String → Except String (String × String))
    (path host : String) :
    (openLocked unlock path host).Within (Query.Concerns path host) fun _ => True := by
  refine Dialogue.Within.bind (within_tryStored _ fun _ h => h) fun stored _ => ?_
  cases stored with
  | some key => exact trivial
  | none =>
    refine Dialogue.Within.bind (.question .prompt) fun said _ => ?_
    split
    · exact trivial
    · split
      · exact trivial
      · exact (within_remember path host _).bind fun _ _ => trivial

/-- **What loading asks**: about its own key file and host only. -/
theorem all_load (path host : String) : (load path host).All (Query.Concerns path host) := by
  refine Dialogue.all_iff_within.mpr (Dialogue.Within.bind (.question .read) fun file _ => ?_)
  cases file with
  | missing => exact trivial
  | unreadable e => exact trivial
  | plain algorithm comment => exact trivial
  | locked unlock => exact within_openLocked unlock path host

end RemoteShell.Credential
