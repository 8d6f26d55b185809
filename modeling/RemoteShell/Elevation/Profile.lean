import RemoteShell.Assoc
import RemoteShell.Elevation.Method

/-!
# Elevation profiles

What a host offers for elevation, and what has been learned about it: which methods failed, which
passed their check, and the passwords that passed it.

## Main definitions

* `Profile`, `Profile.offers`: the record of one login.
* `Profile.markFailed`, `Profile.forgetPassword`, `Profile.trust`: what is learned.
* `Summary`, `Profile.description`: the record without its passwords.
-/

namespace RemoteShell.Elevation

/-- What a login offers for elevation, and what has been learned about it. -/
structure Profile where
  user : String
  isRoot : Bool
  groups : List String
  hasSudo : Bool
  sudoFree : Bool
  sudoDenied : Bool
  hasDoas : Bool
  doasFree : Bool
  doasDenied : Bool
  hasSu : Bool
  failed : List Method
  verified : List Method
  passwords : Assoc Method String
  deriving DecidableEq, Repr

namespace Profile

/-- The profile of a user of whom nothing else is known. -/
def ofUser (user : String) : Profile where
  user := user
  isRoot := user == "root"
  groups := []
  hasSudo := false
  sudoFree := false
  sudoDenied := false
  hasDoas := false
  doasFree := false
  doasDenied := false
  hasSu := false
  failed := []
  verified := []
  passwords := []

/-- Does the host offer a method?  A password is only worth asking for where it is needed and the
user is not refused. -/
def offers (p : Profile) : Method → Bool
  | .sudo => p.sudoFree
  | .doas => p.doasFree
  | .sudoPassword => p.hasSudo && !p.sudoFree && !p.sudoDenied
  | .doasPassword => p.hasDoas && !p.doasFree && !p.doasDenied
  | .su => p.hasSu

/-- Is the user in a group whose members usually may elevate? -/
def inAdminGroup (p : Profile) : Bool :=
  p.groups.any fun g => ["sudo", "wheel", "admin"].contains g

/-- Drop the password and the check of a method without marking it failed. -/
def forgetPassword (p : Profile) (m : Method) : Profile :=
  { p with verified := p.verified.filter (· ≠ m), passwords := p.passwords.erase m }

/-- Mark a method failed. -/
def markFailed (p : Profile) (m : Method) : Profile :=
  { p.forgetPassword m with failed := p.failed.insert m }

/-- Keep a password of a method. -/
def keepPassword (p : Profile) (m : Method) (password : String) : Profile :=
  { p with passwords := p.passwords.put m password }

/-- Note that a method passed its check. -/
def noteVerified (p : Profile) (m : Method) : Profile :=
  { p with verified := p.verified.insert m }

/-- A method passed its check, with the password it asked for. -/
def trust (p : Profile) (m : Method) (password : Option String) : Profile :=
  match password with
  | none => p.noteVerified m
  | some s => (p.noteVerified m).keepPassword m s

end Profile

/-- A profile without its passwords. -/
structure Summary where
  user : String
  isRoot : Bool
  groups : List String
  -- The methods that the host offers, failed ones included.
  available : List Method
  failed : List Method
  verified : List Method
  deriving DecidableEq, Repr

/-- A profile without its passwords; methods stand in the order in which they are tried. -/
def Profile.summary (p : Profile) : Summary where
  user := p.user
  isRoot := p.isRoot
  groups := p.groups
  available := Method.order.filter p.offers
  failed := Method.order.filter p.failed.contains
  verified := Method.order.filter p.verified.contains

/-- The description of a profile tells how many passwords it holds, never which.  Its sets stand in
no order of their own, but as they are arranged. -/
def Profile.description (arrange : List Method → List Method) (p : Profile) : String :=
  Text.described "ElevationCapabilities"
    [("user", Text.quoted p.user), ("is_root", toString p.isRoot),
      ("groups", Text.listed (p.groups.map Text.quoted)),
      ("available", Text.listed (p.summary.available.map Method.label)),
      ("failed_methods", Text.gathered ((arrange p.failed).map Method.label)),
      ("verified", Text.gathered ((arrange p.verified).map Method.label)),
      ("cached_passwords", toString p.passwords.length)]

end RemoteShell.Elevation
