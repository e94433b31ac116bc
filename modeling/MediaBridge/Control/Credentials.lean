import MediaBridge.Foundation.Base64
import MediaBridge.Gateway.Auth

/-!
# Client credentials

`media_bridge_control/credentials.py`, `issue_token` of `media_bridge_control/security.py`
and `_data_plane_auth_entries` of `media_bridge_control/configuration.py`: what the control
plane stores for a credential and what it publishes of it.

## Implementation notes

The column `expires_at` holds an instant; the driver returns it with the offset of the
session, which is a parameter together with the order in which the database returns rows.
Who created a credential and when it was last used are left out.
-/

namespace MediaBridge.Control

open Foundation MediaBridge.Core Gateway

/-- The bytes that `secrets` draws for a token. -/
structure TokenDraw where
  selectorBytes : Bytes
  secretBytes : Bytes
  selector_length : selectorBytes.length = 12
  secret_length : secretBytes.length = 32

structure OpaqueToken where
  raw : Str
  selector : Str
  digest : Str

/-- `SecurityContext`, as far as tokens need it. -/
structure SecurityContext where
  platform : Platform
  pepper : Bytes
  pepper_length : 32 ≤ pepper.length

namespace SecurityContext

variable (S : SecurityContext)

/-- `digest`; `none` is a `UnicodeEncodeError`. -/
def digest (value purpose : Str) : Option Str :=
  (Utf8.encode (purpose ++ cp 0 :: value)).map fun data =>
    hexText (S.platform.hmacSha256 S.pepper data)

/-- `issue_token`. -/
def issueToken (mark purpose : Str) (draw : TokenDraw) : Option OpaqueToken := do
  let selector := Base64.encodeUrl draw.selectorBytes
  let secret := Base64.encodeUrl draw.secretBytes
  let raw := mark ++ cp 95 :: selector ++ cp 46 :: secret
  let digest ← S.digest raw purpose
  return ⟨raw, selector, digest⟩

end SecurityContext

/-- A row of `client_credentials`. -/
structure ClientCredential where
  selector : Str
  name : Str
  credentialDigest : Str
  scopes : List Str
  expiresAt : Option Instant
  revokedAt : Option Instant
deriving DecidableEq

structure IssuedCredential where
  credential : Str
  selector : Str
  name : Str
  scopes : List Str
  expiresAt : Option Datetime
deriving DecidableEq

/-- Why no credential is issued, revoked or deleted. `other` stands for the exceptions that
are not a `CredentialError`. -/
inductive CredentialError
  | code (code : String)
  | other
deriving DecidableEq

namespace CredentialService

/-- `sorted(scopes)`, of a set of allowed scopes. -/
def sortedScopes (scopes : List Str) : List Str := allowedScopes.filter fun s => decide (s ∈ scopes)

theorem mem_sortedScopes {scopes : List Str} {scope : Str} :
    scope ∈ sortedScopes scopes ↔ scope ∈ allowedScopes ∧ scope ∈ scopes := by
  rw [sortedScopes, List.mem_filter, decide_eq_true_iff]

/-- The request of a credential is valid at a time; a naive expiry cannot be compared. -/
def checkRequest (name : Str) (scopes : List Str) (expiresAt : Option Datetime)
    (now : Instant) : Except CredentialError Unit :=
  if name.isEmpty || 128 < name.length || scopes.isEmpty ||
      !scopes.all fun s => decide (s ∈ allowedScopes) then
    .error (.code "invalid_credential_request")
  else
    match expiresAt with
    | none => .ok ()
    | some expiry =>
        if !expiry.aware then .error .other
        else if expiry.instant ≤ now then .error (.code "invalid_credential_request")
        else .ok ()

/-- `issue`: what is handed out, and the new row. -/
def issue (S : SecurityContext) (name : Str) (scopes : List Str) (expiresAt : Option Datetime)
    (now : Instant) (draw : TokenDraw) :
    Except CredentialError (IssuedCredential × ClientCredential) := do
  checkRequest name scopes expiresAt now
  match S.issueToken (lit "mbc") (lit "client_credential") draw with
  | none => .error .other
  | some issued =>
      let ordered := sortedScopes scopes
      return (⟨issued.raw, issued.selector, name, ordered, expiresAt⟩,
        ⟨issued.selector, name, issued.digest, ordered, expiresAt.map Datetime.instant, none⟩)

/-- A row after `revoke`. -/
def revoked (row : ClientCredential) (now : Instant) : ClientCredential :=
  { row with revokedAt := some (row.revokedAt.getD now) }

end CredentialService

/-- How the database returns what it stores. -/
structure DatabaseReads where
  /-- `order_by(ClientCredential.selector)`. -/
  bySelector : List ClientCredential → List ClientCredential
  bySelector_perm : ∀ rows, (bySelector rows).Perm rows
  /-- The offset of the session at an instant. -/
  sessionOffset : Instant → Int

/-- A stored instant as it is read. -/
def DatabaseReads.datetime (D : DatabaseReads) (i : Instant) : Datetime :=
  ⟨i, some (D.sessionOffset i)⟩

/-- The entry of one row. -/
def dataPlaneAuthEntry (isoformat : Datetime → Str) (D : DatabaseReads)
    (row : ClientCredential) : Json :=
  .obj [(lit "selector", .str row.selector), (lit "digest", .str row.credentialDigest),
    (lit "scopes", .arr ((CredentialService.sortedScopes row.scopes).map .str)),
    (lit "expires_at", match row.expiresAt with
      | some i => .str (isoformat (D.datetime i))
      | none => .null),
    (lit "revoked", .bool row.revokedAt.isSome)]

/-- `_data_plane_auth_entries`. -/
def dataPlaneAuthEntries (isoformat : Datetime → Str) (D : DatabaseReads)
    (rows : List ClientCredential) : List Json :=
  (D.bySelector rows).map (dataPlaneAuthEntry isoformat D)

end MediaBridge.Control
