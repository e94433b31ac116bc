import MediaBridge.Core.ConfigSnapshot
import MediaBridge.Foundation.Json

/-!
# The interop contracts, version 2

`media_bridge/contracts_v2.py`, and `V2ResponsibilityRouter` of `media_bridge/router.py`.

## Implementation notes

The contract version is a literal, so that a request or result has no field for it. An evidence
record whose fields nothing reads is the dictionary that was validated.
-/

namespace MediaBridge.Core

open Foundation

/-- At least one character. -/
def someText (s : Str) : Bool := !s.isEmpty

/-- `OpaqueId`. -/
abbrev OpaqueId := Constrained 256 someText

/-- `^sha256:[0-9a-f]{64}$`. -/
def prefixedDigestPattern (s : Str) : Bool :=
  Str.startsWith s (lit "sha256:") && decide (s.length = 71) && (s.drop 7).all hexChar

/-- `Digest`. -/
abbrev PrefixedDigest := Constrained 71 prefixedDigestPattern

/-- The contract version of every request and result. -/
def interopVersion : Str := lit "media-bridge-interop/v2"

inductive MediaBridgeV2ErrorCode
  | mediaUnsupported
  | assetNotFound
  | assetExpired
  | fetchDenied
  | ssrfBlocked
  | sizeLimitExceeded
  | ocrFailed
  | visionBackendFailed
  | sanitizationFailed
  | policyDenied
  | originalMediaRemains
  | contractVersionUnsupported
  | capabilityUnknown
  | capabilityStale
  | gatewayLoopDetected
deriving DecidableEq

/-- The value of the enumeration member. -/
def MediaBridgeV2ErrorCode.value : MediaBridgeV2ErrorCode → Str
  | .mediaUnsupported => lit "MEDIA_UNSUPPORTED"
  | .assetNotFound => lit "ASSET_NOT_FOUND"
  | .assetExpired => lit "ASSET_EXPIRED"
  | .fetchDenied => lit "FETCH_DENIED"
  | .ssrfBlocked => lit "SSRF_BLOCKED"
  | .sizeLimitExceeded => lit "SIZE_LIMIT_EXCEEDED"
  | .ocrFailed => lit "OCR_FAILED"
  | .visionBackendFailed => lit "VISION_BACKEND_FAILED"
  | .sanitizationFailed => lit "SANITIZATION_FAILED"
  | .policyDenied => lit "POLICY_DENIED"
  | .originalMediaRemains => lit "ORIGINAL_MEDIA_REMAINS"
  | .contractVersionUnsupported => lit "CONTRACT_VERSION_UNSUPPORTED"
  | .capabilityUnknown => lit "CAPABILITY_UNKNOWN"
  | .capabilityStale => lit "CAPABILITY_STALE"
  | .gatewayLoopDetected => lit "GATEWAY_LOOP_DETECTED"

structure V2Error where
  code : MediaBridgeV2ErrorCode
  message : Constrained 200 someText
  retryable : Bool := false

/-- The error of a code whose message is the code. -/
def MediaBridgeV2ErrorCode.error (code : MediaBridgeV2ErrorCode) : V2Error where
  code := code
  message := {
    value := code.value
    encodable := by cases code <;> decide
    length_le := by cases code <;> decide
    accepted := by cases code <;> rfl }

/-- Where an asset comes from: exactly one of the three fields. -/
inductive V2AssetSource
  | assetId (id : OpaqueId)
  | signedUrl (url : Constrained 2048 httpsPattern)
  | inlineBase64 (data : Constrained 2796204 anyText)

inductive MediaTypeHint
  | image
  | pdf
  | document
  | audio
  | video
  | unknown
deriving DecidableEq

/-- The value of the literal. -/
def MediaTypeHint.value : MediaTypeHint → Str
  | .image => lit "image"
  | .pdf => lit "pdf"
  | .document => lit "document"
  | .audio => lit "audio"
  | .video => lit "video"
  | .unknown => lit "unknown"

/-- The hint as an entry of `media_types`. -/
def MediaTypeHint.opaqueId (hint : MediaTypeHint) : OpaqueId where
  value := hint.value
  encodable := by cases hint <;> decide
  length_le := by cases hint <;> decide
  accepted := by cases hint <;> rfl

structure AssetReference where
  source : V2AssetSource
  mediaTypeHint : MediaTypeHint := .unknown

structure TargetCapabilitySnapshot where
  capabilities : Entries Str Json
  freshUntil : Datetime

/-- `is_fresh`; `none` is the `TypeError` of comparing with a naive time. -/
def TargetCapabilitySnapshot.isFresh (target : TargetCapabilitySnapshot) (now : Datetime) :
    Option Bool :=
  if target.freshUntil.aware then some (decide (now.instant ≤ target.freshUntil.instant))
  else none

inductive InteropMode
  | standalone
  | hostManaged
  | eoul
deriving DecidableEq

/-- `normalized_mode == "host_managed"`. -/
def InteropMode.isHostManaged : InteropMode → Bool
  | .standalone => false
  | .hostManaged => true
  | .eoul => true

/-- A message: `dict[str, Any]`. -/
abbrev InteropMessage := Entries Str Json

structure InteropV2Request where
  requestId : OpaqueId
  traceId : OpaqueId
  idempotencyKey : OpaqueId
  mode : InteropMode
  canonicalMessages : List InteropMessage
  assets : List AssetReference := []
  target : TargetCapabilitySnapshot
  messages_range : 1 ≤ canonicalMessages.length ∧ canonicalMessages.length ≤ 128
  assets_length : assets.length ≤ 64

inductive V2Status
  | unchanged
  | prepared
  | blocked
  | failed
deriving DecidableEq

/-- An evidence record whose fields nothing reads. -/
abbrev Evidence := Entries Str Json

structure BackendEvidence where
  id : OpaqueId
  version : OpaqueId

structure PreparedMarker where
  schemaDigest : PrefixedDigest
  expiresAt : Datetime

/-- The fields of `InteropV2Result`. -/
structure InteropFields where
  status : V2Status
  requestId : OpaqueId
  traceId : OpaqueId
  idempotencyKey : OpaqueId
  sanitizedMessages : List InteropMessage := []
  originalMediaRemoved : Bool
  error : Option V2Error := none
  assetDigests : List PrefixedDigest := []
  mediaTypes : List OpaqueId := []
  transformations : List Evidence := []
  backend : Option BackendEvidence := none
  provenance : List Evidence := []
  confidence : Option Evidence := none
  informationLoss : Option Evidence := none
  requiredCapabilitiesAfter : Option Evidence := none
  tokenEstimate : Option Evidence := none
  preparedMarker : Option PreparedMarker := none

namespace InteropFields

/-- The lengths of the lists. -/
def lengthsValid (fields : InteropFields) : Bool :=
  decide (fields.sanitizedMessages.length ≤ 128) && decide (fields.assetDigests.length ≤ 64) &&
    decide (fields.mediaTypes.length ≤ 64) && decide (fields.transformations.length ≤ 64) &&
    decide (fields.provenance.length ≤ 64)

/-- `validate_status_invariants`. -/
def statusValid (fields : InteropFields) : Bool :=
  match fields.status with
  | .prepared =>
      fields.originalMediaRemoved && fields.error.isNone && !fields.assetDigests.isEmpty &&
        !fields.mediaTypes.isEmpty && !fields.transformations.isEmpty && fields.backend.isSome &&
        !fields.provenance.isEmpty && fields.confidence.isSome &&
        fields.informationLoss.isSome && fields.requiredCapabilitiesAfter.isSome &&
        fields.tokenEstimate.isSome && fields.preparedMarker.isSome
  | .unchanged => fields.originalMediaRemoved && fields.error.isNone
  | .blocked => fields.error.isSome
  | .failed => fields.error.isSome

end InteropFields

/-- A result that its validator accepts. -/
structure InteropV2Result extends InteropFields where
  lengths_valid : toInteropFields.lengthsValid = true
  status_valid : toInteropFields.statusValid = true

/-- `provider_call_allowed`. -/
def providerCallAllowed (result : InteropV2Result) : Bool :=
  (decide (result.status = .prepared) || decide (result.status = .unchanged)) &&
    result.originalMediaRemoved

/-- What `V2ResponsibilityRouter.prepare` raises. -/
inductive RouterRaised
  | typeError
  | transform
deriving DecidableEq

structure V2RouteDecision where
  result : InteropV2Result
  providerCallAllowed : Bool
  bridgeCalled : Bool

namespace V2ResponsibilityRouter

/-- `_blocked`. -/
def blocked (request : InteropV2Request) (code : MediaBridgeV2ErrorCode) : V2RouteDecision where
  result := {
    status := .blocked
    requestId := request.requestId
    traceId := request.traceId
    idempotencyKey := request.idempotencyKey
    originalMediaRemoved := false
    error := some code.error
    lengths_valid := rfl
    status_valid := rfl }
  providerCallAllowed := false
  bridgeCalled := false

/-- The canonical messages as they are, with the types of the assets. -/
def unchanged (request : InteropV2Request) (assets : List AssetReference)
    (hassets : assets.length ≤ 64) : V2RouteDecision where
  result := {
    status := .unchanged
    requestId := request.requestId
    traceId := request.traceId
    idempotencyKey := request.idempotencyKey
    sanitizedMessages := request.canonicalMessages
    originalMediaRemoved := true
    mediaTypes := assets.map fun asset => asset.mediaTypeHint.opaqueId
    lengths_valid := by
      simp only [InteropFields.lengthsValid, List.length_map, hassets,
        request.messages_range.2, decide_true, List.length_nil, Nat.zero_le, Bool.and_self]
    status_valid := rfl }
  providerCallAllowed := true
  bridgeCalled := false

/-- `prepare`; `transform` may raise. -/
def prepare (now : Datetime) (transform : InteropV2Request → Option InteropV2Result)
    (request : InteropV2Request) : Except RouterRaised V2RouteDecision :=
  match Json.field request.target.capabilities "vision" with
  | .bool vision => do
      let stale ←
        if request.mode.isHostManaged then
          match request.target.isFresh now with
          | some fresh => .ok (!fresh)
          | none => .error .typeError
        else .ok false
      if stale then return blocked request .capabilityStale
      else if request.assets.isEmpty then return unchanged request [] (Nat.zero_le _)
      else if vision then return unchanged request request.assets request.assets_length
      else
        match transform request with
        | some result => return ⟨result, Core.providerCallAllowed result, true⟩
        | none => .error .transform
  | _ => .ok (blocked request .capabilityUnknown)

end V2ResponsibilityRouter

end MediaBridge.Core
