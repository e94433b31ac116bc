import MediaBridge.Core.Capabilities
import MediaBridge.Core.Receipts
import MediaBridge.Foundation.Unicode

/-!
# Signed configuration snapshots

`media_bridge/config_snapshot.py`: the document that the control plane signs and the
gateway verifies.

## Implementation notes

What the libraries compute is a parameter: how the validation library reads a field, how
a `datetime` is printed, and the Ed25519 signature. `stack` is the number of nested calls
left to `validate_snapshot_body`; the encoder behind the digest goes no deeper.
-/

namespace MediaBridge.Core

open Foundation

/-- A `datetime`; without an offset it is naive. -/
structure Datetime where
  instant : Instant
  offset : Option Int
deriving DecidableEq

/-- `value.tzinfo is not None and value.utcoffset() is not None`. -/
def Datetime.aware (d : Datetime) : Bool := d.offset.isSome

/-- How the validation library reads a JSON value as a field; `none` is a
`ValidationError`. -/
structure FieldReader where
  datetime : Json → Option Datetime
  integer : Json → Option Int
  boolean : Json → Option Bool
  /-- A `UUID`, as `str(uuid)`. -/
  uuid : Json → Option Str

/-- What the libraries around a snapshot compute. -/
structure SnapshotLibrary where
  platform : Platform
  unicode : UnicodeData
  reader : FieldReader
  /-- `value.isoformat()`. -/
  isoformat : Datetime → Str
  /-- `key.verify(signature, message)` returns. -/
  ed25519Verify : Bytes → Bytes → Bytes → Bool
  stack : Nat

/-- `[0-9a-f]`. -/
def hexChar (c : CodePoint) : Bool := c.isAsciiDigit || (97 ≤ c.val && c.val ≤ 102)

/-- `^sha256:[0-9a-f]{64}$`. -/
def snapshotDigestPattern (s : Str) : Bool :=
  Str.startsWith s (lit "sha256:") && decide ((s.drop 7).length = 64) && (s.drop 7).all hexChar

/-- `^ed25519:[A-Za-z0-9_-]{86}$`. -/
def snapshotSignaturePattern (s : Str) : Bool :=
  Str.startsWith s (lit "ed25519:") && decide ((s.drop 8).length = 86) &&
    (s.drop 8).all urlSafeChar

/-- `^[A-Za-z0-9][A-Za-z0-9_.-]{0,63}$`. -/
def keyIdPattern : Str → Bool
  | [] => false
  | c :: rest =>
      c.isAsciiAlnum && rest.length ≤ 63 && rest.all fun d => urlSafeChar d || d == cp 46

structure SignedSnapshot where
  snapshotId : Str
  version : Int
  issuedAt : Datetime
  body : Entries Str Json
  digest : Constrained 71 snapshotDigestPattern
  signature : Constrained 94 snapshotSignaturePattern
  keyId : Constrained 64 keyIdPattern
  version_pos : 1 ≤ version
  issued_aware : issuedAt.aware = true

/-- Why a snapshot is not verified. `rejected` is the `SnapshotVerificationError`; the
others are exceptions that are not turned into one. -/
inductive VerificationError
  | rejected (message : String)
  | valueError
  | recursionError
deriving DecidableEq

namespace ConfigSnapshot

def maxSnapshotBytes : Nat := 1024 * 1024

def sensitiveBodyKeys : List String :=
  ["api_key", "base64", "credential", "file_data", "image_url", "local_path", "ocr_text",
    "password", "private_key", "prompt", "provider_secret", "secret", "token",
    "visual_description"]

def schemaName : Str := lit "media-bridge-config/v1"

variable (L : SnapshotLibrary)

/-- `key.lower().replace("-", "_") in SENSITIVE_BODY_KEYS`. -/
def sensitiveKey (key : Str) : Bool :=
  sensitiveBodyKeys.any fun name =>
    decide (Str.replaceAll (L.unicode.lower key) (lit "-") (lit "_") = lit name)

/-- `canonical_json`; `none` is the `SnapshotVerificationError`. -/
def canonicalJson (v : Json) : Option Bytes := do
  let text ← JsonText.dumps L.platform.float ⟨false, true, false⟩ v
  Utf8.encode text

mutual

/-- `validate_snapshot_body` with room for `stack` nested calls. -/
def validateBody : Nat → Json → Except VerificationError Unit
  | 0, _ => .error .recursionError
  | stack + 1, .obj fields => validateFields stack fields
  | stack + 1, .arr items => validateItems stack items
  | _ + 1, _ => .ok ()

/-- The values of a dictionary, after their keys. -/
def validateFields : Nat → List (Str × Json) → Except VerificationError Unit
  | _, [] => .ok ()
  | stack, (key, v) :: rest =>
      if sensitiveKey L key then
        .error (.rejected "snapshot body contains a forbidden field")
      else do
        validateBody stack v
        validateFields stack rest

/-- The items of a list. -/
def validateItems : Nat → List Json → Except VerificationError Unit
  | _, [] => .ok ()
  | stack, v :: rest => do
      validateBody stack v
      validateItems stack rest

end

/-- `snapshot_digest`. -/
def snapshotDigest (body : Entries Str Json) : Except VerificationError Str := do
  validateBody L L.stack (.obj body)
  match canonicalJson L (.obj body) with
  | none => .error (.rejected "snapshot is not canonicalizable")
  | some data => .ok (lit "sha256:" ++ L.platform.sha256Hex data)

/-- The dictionary that is signed. -/
def signedFields (snapshot : SignedSnapshot) : Json :=
  .obj [(lit "schema", .str schemaName), (lit "snapshot_id", .str snapshot.snapshotId),
    (lit "version", .int snapshot.version),
    (lit "issued_at", .str (L.isoformat snapshot.issuedAt)), (lit "body", .obj snapshot.body),
    (lit "digest", .str snapshot.digest.value), (lit "key_id", .str snapshot.keyId.value)]

/-- `snapshot_signature_message`; `none` is the `SnapshotVerificationError`. -/
def signatureMessage (snapshot : SignedSnapshot) : Option Bytes :=
  canonicalJson L (signedFields L snapshot)

/-- `_decode_signature`. -/
def decodeSignature (signature : Str) : Option Bytes := Base64.decodeUrl (signature.drop 8)

/-- The fields of a snapshot document. -/
def fieldNames : List String :=
  ["schema", "snapshot_id", "version", "issued_at", "body", "digest", "signature", "key_id"]

/-- `SignedSnapshot.model_validate`; `none` is a `ValidationError`. -/
def readSnapshot (payload : Json) : Option SignedSnapshot := do
  let fields ← payload.obj?
  if !Json.keysWithin fields fieldNames then none
  else if !(Json.field fields "schema").isLit "media-bridge-config/v1" then none
  else do
    let snapshotId ← Entries.get? fields (lit "snapshot_id")
    let snapshotId ← L.reader.uuid snapshotId
    let version ← Entries.get? fields (lit "version")
    let version ← L.reader.integer version
    let issuedAt ← Entries.get? fields (lit "issued_at")
    let issuedAt ← L.reader.datetime issuedAt
    let body ← (Json.field fields "body").obj?
    let digest ← (Json.field fields "digest").str?
    let digest ← Constrained.validate 71 snapshotDigestPattern digest
    let signature ← (Json.field fields "signature").str?
    let signature ← Constrained.validate 94 snapshotSignaturePattern signature
    let keyId ← (Json.field fields "key_id").str?
    let keyId ← Constrained.validate 64 keyIdPattern keyId
    if h : 1 ≤ version ∧ issuedAt.aware = true then
      return ⟨snapshotId, version, issuedAt, body, digest, signature, keyId, h.1, h.2⟩
    else none

/-- `SnapshotVerifier`: the public keys by their identifiers. -/
abbrev Verifier := Entries Str Bytes

/-- The checks of a snapshot that has been read. -/
def checkSnapshot (keys : Verifier) (snapshot : SignedSnapshot) :
    Except VerificationError SignedSnapshot := do
  validateBody L L.stack (.obj snapshot.body)
  let digest ← snapshotDigest L snapshot.body
  if snapshot.digest.value ≠ digest then
    .error (.rejected "snapshot digest does not match")
  else
    match Entries.get? keys snapshot.keyId.value with
    | none => .error (.rejected "snapshot signing key is unknown")
    | some key =>
        match decodeSignature snapshot.signature.value with
        | none => .error (.rejected "snapshot signature is invalid")
        | some signature =>
            match signatureMessage L snapshot with
            | none => .error (.rejected "snapshot is not canonicalizable")
            | some message =>
                if L.ed25519Verify key signature message then .ok snapshot
                else .error (.rejected "snapshot verification failed")

/-- `verify_object`. -/
def verifyObject (keys : Verifier) (payload : Json) : Except VerificationError SignedSnapshot :=
  match readSnapshot L payload with
  | none => .error (.rejected "snapshot verification failed")
  | some snapshot => checkSnapshot L keys snapshot

/-- `verify_json`. -/
def verifyJson (keys : Verifier) (serialized : Str) : Except VerificationError SignedSnapshot :=
  match Utf8.encode serialized with
  | none => .error .valueError
  | some data =>
      if maxSnapshotBytes < data.length then
        .error (.rejected "snapshot exceeds the configured limit")
      else
        match JsonText.loads L.platform.float L.platform.jsonDepth serialized with
        | .error .decode => .error (.rejected "snapshot JSON is invalid")
        | .error .intTooLong => .error .valueError
        | .error .recursion => .error .recursionError
        | .ok payload => verifyObject L keys payload

end ConfigSnapshot

end MediaBridge.Core
