import MediaBridge.Control.Credentials

/-!
# Accounts of the control plane

The rows of `users`, and what `ControlPlaneService` of `media_bridge_control/bootstrap.py` checks of
a name and of a password before it uses them.
-/

namespace MediaBridge.Control

open Foundation MediaBridge.Core

/-- A `UUID`. -/
abbrev Uuid := BitVec 128

/-- `Role`. -/
inductive Role
  | admin
  | operator
  | viewer
deriving DecidableEq

namespace Role

/-- `role.value`. -/
def value : Role → Str
  | .admin => lit "admin"
  | .operator => lit "operator"
  | .viewer => lit "viewer"

/-- The role with a value. -/
def ofValue? (text : Str) : Option Role :=
  [Role.admin, .operator, .viewer].find? fun role => role.value = text

end Role

/-- A row of `users`. -/
structure User where
  id : Uuid
  username : Str
  passwordHash : Str
  totpRequired : Bool := false
  totpSecretCiphertext : Option Str := none
  recoveryEmail : Option Str := none
  role : Role
  isActive : Bool := true
deriving DecidableEq

/-- `PasswordHasher`: `argon2` hashes the bytes of a password with a salt. -/
structure PasswordHasher where
  argon2 : Bytes → Bytes → Str
  verify : Str → Str → Bool

/-- `PasswordHasher.hash`; `none` is a `ValueError`. -/
def PasswordHasher.hash (passwords : PasswordHasher) (salt : Bytes) (password : Str)
    (allowSystemDefault : Bool := false) : Option Str :=
  if (password.length < 12 ∧ ¬ allowSystemDefault) ∨ 1024 < password.length then none
  else (Utf8.encode password).map (passwords.argon2 salt)

/-- Passwords that are their own hashes. -/
def plainPasswords : PasswordHasher where
  argon2 _ password := password.map fun b => cp b.val
  verify encoded password := decide (encoded = password)

/-- A `ControlPlaneError`; `AuthenticationError` and `BootstrapError` are its subclasses. -/
inductive ControlPlaneError
  | controlPlane (code : String)
  | authentication (code : String)
deriving DecidableEq

/-- `_username`. -/
def normalizedUsername (U : UnicodeData) (value : Str) : Except ControlPlaneError Str :=
  let normalized := U.lower value.strip
  if normalized.isEmpty ∨ 128 < normalized.length then .error (.controlPlane "invalid_input")
  else if normalized.all fun c =>
      c.isAscii && (c.isAsciiAlnum || (lit "._-").contains [c]) then .ok normalized
  else .error (.controlPlane "invalid_input")

end MediaBridge.Control
