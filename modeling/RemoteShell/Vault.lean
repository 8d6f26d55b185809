import RemoteShell.Assoc

/-!
# Vault

Secrets by name.  A passphrase is kept under the path of its key file and under the host it was
used for; a password is kept under the account it belongs to.

## Main definitions

* `Vault` with `get?`, `set` and `delete`; a vault may be one that remembers nothing.
* `Vault.passphraseOfPath`, `Vault.passphraseOfHost`, `Vault.passwordOf`: the names of secrets.
-/

namespace RemoteShell

/-- Secrets by name. -/
structure Vault where
  remembers : Bool
  secrets : Assoc String String
  deriving Repr

namespace Vault

/-- The name of the passphrase of a key file. -/
def passphraseOfPath (path : String) : String := "ssh-passphrase:key:" ++ path

/-- The name of the passphrase that a host's key file needs. -/
def passphraseOfHost (host : String) : String := "ssh-passphrase:host:" ++ host

/-- The name of a password of an account; the space tells the user's own password from that of
the superuser. -/
def passwordOf (space user host : String) (port : UInt16) : String :=
  "ssh-elevation:" ++ space ++ ":" ++ user ++ "@" ++ host ++ ":" ++ toString port.toNat

/-- The secret of a name. -/
def get? (v : Vault) (name : String) : Option String :=
  if v.remembers then v.secrets.get? name else none

/-- Keep a secret. -/
def set (v : Vault) (name secret : String) : Vault :=
  if v.remembers then { v with secrets := v.secrets.put name secret } else v

/-- Forget a secret. -/
def delete (v : Vault) (name : String) : Vault :=
  if v.remembers then { v with secrets := v.secrets.erase name } else v

/-- The description of a vault tells how much it holds, never what. -/
def description (v : Vault) : String :=
  "MemorySecretStore \x7b entries: " ++ toString v.secrets.length ++ " \x7d"

end Vault

end RemoteShell
