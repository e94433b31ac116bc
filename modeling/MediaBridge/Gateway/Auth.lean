import MediaBridge.Core.RuntimeSnapshot
import MediaBridge.Gateway.Transaction

/-!
# Authentication from a snapshot

`media_bridge_gateway/auth.py`: the credentials that a snapshot lists by the digests of
their tokens, and the subject that a request header proves.

## Implementation notes

A header is text; the server decodes it from Latin-1. `rejected` is the
`CredentialAuthenticationError`; `other` stands for every other exception.
-/

namespace MediaBridge.Gateway

open Foundation MediaBridge.Core

def allowedScopes : List Str := [lit "assets:write", lit "mcp:invoke", lit "responses:invoke"]

/-- `^[A-Za-z0-9_-]{1,32}$`. -/
def credentialSelectorPattern (s : Str) : Bool :=
  1 ≤ s.length && s.length ≤ 32 && s.all urlSafeChar

/-- `^[0-9a-f]{64}$`. -/
def credentialDigestPattern (s : Str) : Bool := decide (s.length = 64) && s.all hexChar

structure SnapshotCredentialEntry where
  selector : Constrained 32 credentialSelectorPattern
  digest : Constrained 64 credentialDigestPattern
  scopes : List Str
  expiresAt : Option Datetime
  revoked : Bool
  scopes_ne : scopes ≠ []
  scopes_allowed : ∀ scope ∈ scopes, scope ∈ allowedScopes
  expiry_aware : ∀ d ∈ expiresAt, d.aware = true

inductive AuthError
  | rejected (code : String)
  | other
deriving DecidableEq

namespace SnapshotAuth

/-- The keys of a credential entry. -/
def entryNames : List String := ["selector", "digest", "scopes", "expires_at", "revoked"]

/-- `SnapshotCredentialEntry.model_validate`; `none` is a `ValidationError`. The scopes are
a set, of at most three since no others are allowed. -/
def readEntry (R : FieldReader) (v : Json) : Option SnapshotCredentialEntry := do
  let fields ← v.obj?
  if !Json.keysWithin fields entryNames then none
  else do
    let selector ← (Json.field fields "selector").str?
    let selector ← Constrained.validate 32 credentialSelectorPattern selector
    let digest ← (Json.field fields "digest").str?
    let digest ← Constrained.validate 64 credentialDigestPattern digest
    let scopes ← RuntimeSnapshot.textItems (Json.field fields "scopes")
    let expiresAt ← RuntimeSnapshot.optionalTime R fields "expires_at"
    let revoked ← RuntimeSnapshot.optionalFlag R fields "revoked"
    let scopes := scopes.dedup
    if h : scopes ≠ [] ∧ (∀ scope ∈ scopes, scope ∈ allowedScopes) ∧
        ∀ d ∈ expiresAt, d.aware = true then
      return ⟨selector, digest, scopes, expiresAt, revoked, h.1, h.2.1, h.2.2⟩
    else none

def maxEntries : Nat := 10000

/-- `SnapshotAuthDocument.model_validate`; `none` is a `ValidationError`. -/
def readDocument (R : FieldReader) (v : Json) : Option (List SnapshotCredentialEntry) := do
  let fields ← v.obj?
  if !Json.keysWithin fields ["entries"] then none
  else
    match Json.field fields "entries" with
    | .arr items => if items.length ≤ maxEntries then items.mapM (readEntry R) else none
    | _ => none

end SnapshotAuth

/-- `SnapshotCredentialVerifier`: the entries of one snapshot, no two with one selector. -/
structure SnapshotCredentialVerifier where
  entries : List SnapshotCredentialEntry
  pepper : Bytes
  pepper_length : 32 ≤ pepper.length
  selectors_nodup : (entries.map fun e => e.selector.value).Nodup

namespace SnapshotCredentialVerifier

/-- The entries of a snapshot; a missing document has none. -/
def readEntries (R : FieldReader) (body : Entries Str Json) :
    Option (List SnapshotCredentialEntry) :=
  match Json.field body "data_plane_auth" with
  | .null => some []
  | document => SnapshotAuth.readDocument R document

/-- `SnapshotCredentialVerifier(snapshot, pepper)`; `none` is the error of an invalid
document, of duplicate selectors, or of a short pepper. -/
def build (R : FieldReader) (body : Entries Str Json) (pepper : Bytes) :
    Option SnapshotCredentialVerifier := do
  let entries ← readEntries R body
  if h : 32 ≤ pepper.length ∧ (entries.map fun e => e.selector.value).Nodup then
    return ⟨entries, pepper, h.1, h.2⟩
  else none

/-- The prefix of the credential scheme. -/
def bearerPrefix : Str := lit "Bearer "

/-- The prefix of a token. -/
def tokenPrefix : Str := lit "mbc_"

/-- `_bearer`; `none` is the rejection. -/
def bearer (authorization : Option Str) : Option Str := do
  let header ← authorization
  if !header.startsWith bearerPrefix then none
  else
    let raw := header.drop 7
    if raw.isEmpty || decide (Str.strip raw ≠ raw) || decide (cp 32 ∈ raw) ||
        decide (160 < raw.length) then none
    else some raw

/-- `_selector`. -/
def selector (raw : Str) : Option Str :=
  if !raw.startsWith tokenPrefix then none
  else
    match Str.partitionAt (cp 46) (raw.drop 4) with
    | (_, none) => none
    | (selector, some secret) =>
        if !credentialSelectorPattern selector || secret.isEmpty || 64 < secret.length then none
        else some selector

/-- What is authenticated: the purpose, a null character and the token. -/
def credentialPayload (raw : Str) : Str := lit "client_credential" ++ cp 0 :: raw

/-- `_digest`; `none` is a `UnicodeEncodeError`. -/
def digest (P : Platform) (pepper : Bytes) (raw : Str) : Option Str :=
  (Utf8.encode (credentialPayload raw)).map fun data => hexText (P.hmacSha256 pepper data)

/-- `DataPlaneSubject(...)`; `none` is a `ValueError`. -/
def subjectOf (entry : SnapshotCredentialEntry) : Option DataPlaneSubject :=
  if h : responseIdPattern entry.selector.value = true ∧
      tenantIdPattern (lit "client-" ++ entry.selector.value) = true ∧
      entry.scopes ≠ [] ∧ ∀ scope ∈ entry.scopes, scopePattern scope = true then
    some ⟨entry.selector.value, lit "client-" ++ entry.selector.value, entry.scopes,
      h.1, h.2.1, h.2.2⟩
  else none

/-- The entry is usable for the scope at the time. -/
def usable (entry : SnapshotCredentialEntry) (now : Instant) (requiredScope : Str) : Bool :=
  !entry.revoked && !(entry.expiresAt.any fun d => decide (d.instant ≤ now)) &&
    decide (requiredScope ∈ entry.scopes)

/-- The end of `authenticate`, when the selector has an entry. -/
def accept (P : Platform) (pepper : Bytes) (entry : SnapshotCredentialEntry) (now : Instant)
    (requiredScope raw : Str) : Except AuthError DataPlaneSubject :=
  if !usable entry now requiredScope then .error (.rejected "credential_invalid")
  else
    match digest P pepper raw with
    | none => .error .other
    | some computed =>
        if computed ≠ entry.digest.value then .error (.rejected "credential_invalid")
        else
          match subjectOf entry with
          | none => .error .other
          | some subject => .ok subject

/-- `self._entries.get(selector)`. -/
def lookup (verifier : SnapshotCredentialVerifier) (selector : Str) :
    Option SnapshotCredentialEntry :=
  verifier.entries.find? fun e => decide (e.selector.value = selector)

/-- `authenticate`. -/
def authenticate (P : Platform) (verifier : SnapshotCredentialVerifier) (now : Datetime)
    (authorization : Option Str) (requiredScope : Str) (cookieHeader : Option Str) :
    Except AuthError DataPlaneSubject :=
  if cookieHeader.any fun cookie => !(Str.strip cookie).isEmpty then
    .error (.rejected "admin_session_not_allowed")
  else if requiredScope ∉ allowedScopes then .error (.rejected "credential_invalid")
  else
    match bearer authorization with
    | none => .error (.rejected "credential_invalid")
    | some raw =>
        if !now.aware then .error (.rejected "credential_invalid")
        else
          match (selector raw).bind verifier.lookup with
          | none => .error (.rejected "credential_invalid")
          | some entry => accept P verifier.pepper entry now.instant requiredScope raw

end SnapshotCredentialVerifier

end MediaBridge.Gateway
