import MediaBridge.Foundation.UrlSplit
import MediaBridge.Gateway.State

/-!
# Constraints of the Admin API

The patterns and the nested models of `media_bridge_control/schemas.py` that several requests
share.

## Implementation notes

A pattern is anchored at both ends, and is a predicate on the whole string.
-/

namespace MediaBridge.Control

open Foundation MediaBridge.Core Gateway

/-- `^[A-Za-z0-9][A-Za-z0-9_.-]{0,127}$`. -/
def namePattern : Str → Bool :=
  identifierPattern CodePoint.isAsciiAlnum fun c => urlSafeChar c || c == cp 46

/-- `kind` of a `SecretReference`. -/
inductive SecretKind
  | env
  | dockerSecret
  | external
  | db
deriving DecidableEq

def SecretKind.value : SecretKind → Str
  | .env => lit "env"
  | .dockerSecret => lit "docker_secret"
  | .external => lit "external"
  | .db => lit "db"

/-- A `SecretReference`. -/
structure SecretReference where
  kind : SecretKind
  identifier : Str
deriving DecidableEq

namespace SecretReference

/-- `[A-Z][A-Z0-9_]{0,127}`. -/
def envPattern : Str → Bool :=
  identifierPattern CodePoint.isAsciiUpper fun c =>
    c.isAsciiUpper || c.isAsciiDigit || c == cp 95

/-- `allowed_prefixes`. -/
def allowedPrefixes : List Str :=
  [lit "vault://", lit "aws-sm://", lit "gcp-sm://", lit "azure-kv://"]

/-- `[A-Za-z0-9][A-Za-z0-9._/@:-]*`, what follows the scheme of a locator. -/
def locatorPattern : Str → Bool
  | [] => false
  | c :: rest => c.isAsciiAlnum && rest.all fun d =>
      d.isAsciiAlnum || (lit "._/@:-").contains [d]

/-- The branch of an external reference; the scheme is one of the allowed ones. -/
def externalAccepted (identifier : Str) : Bool :=
  !identifier.contains (lit "..") && !identifier.contains (lit "?") &&
    !identifier.contains (lit "#") && allowedPrefixes.any fun pre =>
      identifier.startsWith pre && locatorPattern (identifier.drop pre.length)

/-- `validate_identifier`. -/
def identifierAccepted (ref : SecretReference) : Bool :=
  match ref.kind with
  | .env => envPattern ref.identifier
  | .dockerSecret => namePattern ref.identifier
  | .external => externalAccepted ref.identifier
  | .db => decide (ref.identifier = lit "provider_api_key")

/-- `SecretReference.model_validate` returns. -/
def Valid (ref : SecretReference) : Prop :=
  Str.encodable ref.identifier = true ∧ ref.identifier ≠ [] ∧ ref.identifier.length ≤ 255 ∧
    ref.identifierAccepted = true

instance (ref : SecretReference) : Decidable ref.Valid :=
  inferInstanceAs (Decidable (_ ∧ _ ∧ _ ∧ _))

end SecretReference

/-- `ConnectionCreate.validate_gateway_url`; `none` is a `ValueError`. -/
def validateGatewayUrl (U : UnicodeData) (value : Str) : Option Str :=
  match UrlSplit.urlsplit U value with
  | none => none
  | some parsed =>
      if parsed.scheme ≠ lit "https" ∨ parsed.hostText.isEmpty ∨ parsed.hasUserinfo ∨
          ¬ parsed.query.isEmpty ∨ ¬ parsed.fragment.isEmpty ∨
          lit ".." ∈ Str.splitOn UrlSplit.slash parsed.path then none
      else some (value.rdropWhile fun c => decide (c = UrlSplit.slash))

end MediaBridge.Control
