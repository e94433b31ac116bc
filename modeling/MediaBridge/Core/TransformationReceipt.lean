import MediaBridge.Core.InteropV2

/-!
# Transformation receipts

`media_bridge/interop_v2.py`: a receipt says that a request has been prepared, and for how long
this may be relied on.

## Implementation notes

`now` is what `datetime.now(UTC)` reads. No caller passes a schema digest to expect. The encoder
behind the digests has room for any nesting.
-/

namespace MediaBridge.Core

open Foundation

structure TransformationReceipt where
  contractVersion : Str
  requestId : Str
  traceId : Str
  idempotencyKey : Str
  transformationVersion : Str
  inputDigest : Str
  outputDigest : Str
  schemaDigest : Str
  originalMediaRemoved : Bool
  issuedAt : Instant
  expiresAt : Instant

/-- The messages of the `ReceiptValidationError`s of `build_transformation_receipt`. -/
inductive ReceiptRefusal
  | notPrepared
  | noMarker
  | ttlRange
  | beyondAsset
deriving DecidableEq

/-- `str(error)`. -/
def ReceiptRefusal.text : ReceiptRefusal → Str
  | .notPrepared => lit "only media-free PREPARED results can be receipted"
  | .noMarker => lit "prepared marker is required"
  | .ttlRange => lit "receipt ttl is outside the allowed range"
  | .beyondAsset => lit "receipt ttl exceeds asset ttl"

/-- The text as the message of an error. -/
def ReceiptRefusal.message (refusal : ReceiptRefusal) : Constrained 200 someText where
  value := refusal.text
  encodable := by cases refusal <;> decide
  length_le := by cases refusal <;> decide
  accepted := by cases refusal <;> rfl

/-- How `build_transformation_receipt` fails. `raised` is an exception that is not a
`ReceiptValidationError`. -/
inductive ReceiptFailure
  | refused (refusal : ReceiptRefusal)
  | raised
deriving DecidableEq

namespace TransformationReceipt

/-- `datetime.max`. -/
def lastInstant : Instant := 253402300799999999

/-- `timedelta(seconds=...)`. -/
def seconds (n : Int) : Int := n * 1000000

/-- `_digest`; `none` is the `ValueError` of the encoder. -/
def digest (P : Platform) (value : Json) : Option Str := do
  let text ← JsonText.dumps P.float ⟨true, true, true⟩ value
  let data ← Utf8.encode text
  return lit "sha256:" ++ P.sha256Hex data

/-- The asset digests, as a JSON value. -/
def assetDigestsValue (result : InteropFields) : Json :=
  .arr (result.assetDigests.map fun d => .str d.value)

/-- The sanitized messages, as a JSON value. -/
def messagesValue (result : InteropFields) : Json := .arr (result.sanitizedMessages.map .obj)

/-- `result.backend.version if result.backend else "unknown"`. -/
def backendVersion (result : InteropFields) : Str :=
  match result.backend with
  | some backend => backend.version.value
  | none => lit "unknown"

/-- The receipt of a result whose times have been checked. -/
def assemble (P : Platform) (result : InteropFields) (marker : PreparedMarker) (issued : Instant)
    (ttlSeconds : Int) : Except ReceiptFailure TransformationReceipt :=
  match digest P (assetDigestsValue result), digest P (messagesValue result) with
  | some input, some output =>
      .ok {
        contractVersion := interopVersion
        requestId := result.requestId.value
        traceId := result.traceId.value
        idempotencyKey := result.idempotencyKey.value
        transformationVersion := backendVersion result
        inputDigest := input
        outputDigest := output
        schemaDigest := marker.schemaDigest.value
        originalMediaRemoved := true
        issuedAt := issued
        expiresAt := issued + seconds ttlSeconds }
  | _, _ => .error .raised

/-- `build_transformation_receipt`. -/
def build (P : Platform) (now : Instant) (ttlSeconds : Int) (result : InteropFields) :
    Except ReceiptFailure TransformationReceipt :=
  if result.status ≠ .prepared ∨ result.originalMediaRemoved = false then
    .error (.refused .notPrepared)
  else
    match result.preparedMarker with
    | none => .error (.refused .noMarker)
    | some marker =>
        if ttlSeconds < 1 ∨ 300 < ttlSeconds then .error (.refused .ttlRange)
        else if lastInstant < now + seconds ttlSeconds then .error .raised
        else if marker.expiresAt.aware = false then .error .raised
        else if marker.expiresAt.instant < now + seconds ttlSeconds then
          .error (.refused .beyondAsset)
        else assemble P result marker now ttlSeconds

variable {P : Platform} {now : Instant} {ttlSeconds : Int} {result : InteropFields}
  {receipt : TransformationReceipt}

/-- What a receipt stands for. -/
structure Issued (now : Instant) (ttlSeconds : Int) (result : InteropFields)
    (receipt : TransformationReceipt) : Prop where
  prepared : result.status = .prepared
  removed : result.originalMediaRemoved = true
  issuedAt : receipt.issuedAt = now
  expiresAt : receipt.expiresAt = now + seconds ttlSeconds
  withinAsset : ∃ marker, result.preparedMarker = some marker ∧
    receipt.expiresAt ≤ marker.expiresAt.instant

theorem times_of_assemble {marker : PreparedMarker}
    (h : assemble P result marker now ttlSeconds = .ok receipt) :
    receipt.issuedAt = now ∧ receipt.expiresAt = now + seconds ttlSeconds := by
  unfold assemble at h
  split at h
  · cases h
    exact ⟨rfl, rfl⟩
  · cases h

/-- A receipt is issued for a prepared result without original media, and expires before the
asset does. -/
theorem issued_of_build (h : build P now ttlSeconds result = .ok receipt) :
    Issued now ttlSeconds result receipt := by
  unfold build at h
  split at h
  · cases h
  · rename_i hprepared
    rw [not_or, not_not, Bool.not_eq_false] at hprepared
    split at h
    · cases h
    · rename_i marker hmarker
      split at h
      · cases h
      split at h
      · cases h
      split at h
      · cases h
      split at h
      · cases h
      rename_i hasset
      obtain ⟨hissued, hexpires⟩ := times_of_assemble h
      refine ⟨hprepared.1, hprepared.2, hissued, hexpires, marker, hmarker, ?_⟩
      rw [hexpires]
      exact not_lt.mp hasset

end TransformationReceipt

end MediaBridge.Core
