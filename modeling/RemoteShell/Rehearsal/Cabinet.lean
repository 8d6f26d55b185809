import RemoteShell.Credential.Search

/-!
# Key cabinet

A small tree of files with keys of every kind: plain ones, ones that need a passphrase, and ones
that cannot be read.

## Main definitions

* `Cabinet.root`, `Cabinet.files`: the directory of the keys and what is in it.
* `Cabinet.walk`, `Cabinet.read`: what stands at a path.
-/

namespace RemoteShell.Rehearsal.Cabinet

open Credential (KeyFile)

/-- The directory of the keys. -/
def root : String := "/rehearsal/keys"

/-- A key that one passphrase opens; with any other one decoding says why not. -/
def locked (algorithm comment passphrase complaint : String) : KeyFile :=
  .locked fun s => if s == passphrase then .ok (algorithm, comment) else .error complaint

/-- The key files by name. -/
def files : List (String × KeyFile) :=
  [("plain", .plain "ssh-ed25519" "fixture-plain"),
    ("no_comment", .plain "ssh-ed25519" ""),
    ("ecdsa", .plain "ecdsa-sha2-nistp256" "ops@bastion"),
    ("ec_sec1", .plain "ecdsa-sha2-nistp256" ""),
    ("pkcs8_plain", .plain "ecdsa-sha2-nistp256" ""),
    ("rsa", .plain "ssh-rsa" "legacy rsa key"),
    ("rsa_pem", .plain "ssh-rsa" ""),
    ("encrypted",
      locked "ssh-ed25519" "fixture-encrypted" "correct horse" "SshKey: cryptographic error"),
    ("encrypted_unicode",
      locked "ssh-ed25519" "ünïcode ☃" "pässwörd" "SshKey: cryptographic error"),
    ("rsa_pem_encrypted", locked "ssh-rsa" "" "sesame" "Unpad Error"),
    ("empty", .unreadable "Could not read key"),
    ("garbage", .unreadable "Could not read key"),
    ("text_encrypted", .unreadable "Could not read key"),
    ("bad_base64", .unreadable "SshKey: length invalid"),
    ("truncated", .unreadable "SshKey: length invalid"),
    ("pkcs8_encrypted",
      .unreadable "Der: unexpected ASN.1 DER tag: expected INTEGER, got SEQUENCE")]

/-- The components of a path. -/
def components (path : String) : List String :=
  (Text.pieces (· == '/') path.toList).map String.ofList

/-- The directory of the keys as its components behind the root. -/
def home : List String := (components root).drop 1

/-- The directories of the tree, as their components. -/
def directories : List (List String) :=
  [[], ["etc"], home.dropLast, home, home ++ ["dir"]]

/-- The key file at a place, given as its components. -/
def fileAt? (place : List String) : Option KeyFile :=
  if place.dropLast = home then (place.getLast?).bind fun n => files.lookup n else none

/-- Is there a directory at a place? -/
def isDirectory (place : List String) : Bool := directories.contains place

/-- Does something stand at a place? -/
def occupied (place : List String) : Bool := isDirectory place || (fileAt? place).isSome

/-- Go on from a place by the components of a path; only directories can be passed. -/
def walk (place : List String) : List String → Option (List String)
  | [] => some place
  | c :: rest =>
    if !isDirectory place then none
    else if c = "" ∨ c = "." then walk place rest
    else if c = ".." then walk place.dropLast rest
    else if occupied (place ++ [c]) then walk (place ++ [c]) rest
    else none

/-- The place of a path from the root; other paths lead nowhere. -/
def place? (path : String) : Option (List String) :=
  match components path with
  | "" :: c :: rest => walk [] (c :: rest)
  | _ => none

/-- What stands at a path. -/
def read (path : String) : KeyFile :=
  match place? path with
  | none => .missing
  | some place => (fileAt? place).getD (.unreadable "Is a directory (os error 21)")

end RemoteShell.Rehearsal.Cabinet
