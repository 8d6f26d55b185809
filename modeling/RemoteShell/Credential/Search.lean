import RemoteShell.Credential.Offer
import RemoteShell.Credential.Operator
import RemoteShell.Dialogue
import RemoteShell.Setting
import RemoteShell.Target
import RemoteShell.Vault

/-!
# Search for credentials

For one host the first source that applies decides, and nothing is tried behind a source that
fails: an agent that holds keys, else the key file that is asked for, else the first standard key
file that is there, else the operator's choice.  A jump host is searched for first, by itself.

A key file is first decoded as it is.  If it needs a passphrase, the stored ones are tried, first
the one of its path, then the one of the host; after that the operator is asked once.  A
passphrase that opens the file is stored under both names.

## Main definitions

* `KeyFile`: what stands at a path.
* `Query`, `Query.Answer`, `Talk`: what the search asks others.
* `load`: one key file.
* `search`, `resolve`: one host, and a target with its jump host.
-/

namespace RemoteShell.Credential

/-- What stands at a path, as far as key files go. -/
inductive KeyFile where
  | missing
  | plain (algorithm comment : String)
  -- A key that needs a passphrase: what decoding with one gives, or what it says.
  | locked (unlock : String → Except String (String × String))
  | unreadable (reason : String)

/-- What the search asks others. -/
inductive Query where
  | agent (socket : String)
  | read (path : String)
  | fetch (name : String)
  | store (name secret : String)
  | prompt (message : String)
  | choose (host user : String)

/-- The answers to a question. -/
abbrev Query.Answer : Query → Type
  | .agent _ => Bool
  | .read _ => KeyFile
  | .fetch _ => Option String
  | .store .. => Unit
  | .prompt _ => Option String
  | .choose .. => Option Choice

/-- A dialogue of the search. -/
abbrev Talk (α : Type) : Type := Dialogue Query Query.Answer α

namespace Talk

/-- Does the agent behind a socket hold keys? -/
def agent (socket : String) : Talk Bool := Dialogue.question (Query.agent socket)

/-- What stands at a path? -/
def read (path : String) : Talk KeyFile := Dialogue.question (Query.read path)

/-- Look up a stored secret. -/
def fetch (name : String) : Talk (Option String) := Dialogue.question (Query.fetch name)

/-- Store a secret. -/
def store (name secret : String) : Talk Unit := Dialogue.question (Query.store name secret)

/-- Ask the operator for a secret. -/
def prompt (message : String) : Talk (Option String) := Dialogue.question (Query.prompt message)

/-- Ask the operator for a way to log in. -/
def choose (host user : String) : Talk (Option Choice) :=
  Dialogue.question (Query.choose host user)

end Talk

/-! ## Key files -/

/-- Store a passphrase under the path of its key file and under the host. -/
def remember (path host passphrase : String) : Talk Unit := do
  Talk.store (Vault.passphraseOfPath path) passphrase
  Talk.store (Vault.passphraseOfHost host) passphrase

/-- Try the stored passphrases of a list of names. -/
def tryStored (unlock : String → Except String (String × String)) (path host : String) :
    List String → Talk (Option Key)
  | [] => .done none
  | name :: names =>
    (Talk.fetch name).bind fun
      | none => tryStored unlock path host names
      | some passphrase =>
        match unlock passphrase with
        | .error _ => tryStored unlock path host names
        | .ok (algorithm, comment) =>
          (remember path host passphrase).bind fun _ => .done (some ⟨path, algorithm, comment⟩)

/-- Open a key file that needs a passphrase. -/
def openLocked (unlock : String → Except String (String × String)) (path host : String) :
    Talk (Except Fault Key) := do
  match ← tryStored unlock path host
      [Vault.passphraseOfPath path, Vault.passphraseOfHost host] with
  | some k => return .ok k
  | none =>
    match (← Talk.prompt ("Enter passphrase for key " ++ path)).filter (!·.isEmpty) with
    | none => return .error (.key path "key is encrypted and no passphrase was provided")
    | some passphrase =>
      match unlock passphrase with
      | .error e => return .error (.key path ("incorrect passphrase: " ++ e))
      | .ok (algorithm, comment) =>
        remember path host passphrase
        return .ok ⟨path, algorithm, comment⟩

/-- Load a key file for a connection to a host. -/
def load (path host : String) : Talk (Except Fault Key) := do
  match ← Talk.read path with
  | .missing => return .error (.key path "key file not found")
  | .unreadable e => return .error (.key path ("failed to load private key: " ++ e))
  | .plain algorithm comment => return .ok ⟨path, algorithm, comment⟩
  | .locked unlock => openLocked unlock path host

/-- The offer of a key file. -/
def loadOffer (path host : String) : Talk (Except Fault Offer) := do
  return (← load path host).map Offer.ofKey

/-! ## Hosts -/

/-- Does something stand at the path of a key file? -/
def KeyFile.exists : KeyFile → Bool
  | .missing => false
  | _ => true

/-- The first path of a list at which something stands. -/
def firstExisting : List String → Talk (Option String)
  | [] => .done none
  | path :: paths =>
    (Talk.read path).bind fun f => if f.exists then .done (some path) else firstExisting paths

/-- The offer that the operator chooses. -/
def chosen (host user : String) : Talk (Except Fault Offer) := do
  let nothing : Except Fault Offer :=
    .error (.authenticationFailed user host
      "no SSH agent, key file or auth method available" false)
  match ← Talk.choose host user with
  | none => return nothing
  | some (.password s) => return if s.isEmpty then nothing else .ok (.ofPassword s)
  | some (.keyFile path) => loadOffer path host
  | some .interactive => return .ok .interactive

/-- Does an agent hold keys, and behind which socket? -/
def agentSocket (socket : Option String) : Talk (Option String) :=
  match socket with
  | none => .done none
  | some s => (Talk.agent s).bind fun b => .done (if b then some s else none)

/-- The offer for one host. -/
def search (s : CredentialSettings) (e : Environment) (host user : String)
    (keyPath : Option String) : Talk (Except Fault Offer) := do
  match ← agentSocket (s.socket? e) with
  | some socket => return .ok (.ofAgent socket)
  | none =>
    match keyPath with
    | some path => loadOffer (Path.expandHome e path) host
    | none =>
      match ← firstExisting s.defaultKeys with
      | some path => loadOffer path host
      | none => chosen host user

/-- The offers for a target and for the jump host in front of it. -/
structure Offers where
  target : Offer
  hop : Option Offer
  deriving DecidableEq, Repr

/-- The offers for a target and for its jump host, the jump host first. -/
def resolve (s : CredentialSettings) (e : Environment) (host user : String)
    (keyPath : Option String) (hop : Option Hop) : Talk (Except Fault Offers) := do
  match hop with
  | none => return (← search s e host user keyPath).map fun o => ⟨o, none⟩
  | some hop =>
    match ← search s e hop.host hop.user hop.keyPath with
    | .error f => return .error f
    | .ok h => return (← search s e host user keyPath).map fun o => ⟨o, some h⟩

end RemoteShell.Credential
