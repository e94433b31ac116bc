import MediaBridge.Core.GateBoundary
import MediaBridge.Gateway.Downstream
import MediaBridge.Gateway.State

/-!
# The gateway transaction

`media_bridge_gateway/transaction.py`: normalize, gate, seal, invoke and record,
in that order.

## Implementation notes

`invoke` is cut where it waits for the gate or for the provider: `beginTurn` comes
before the gate, `sealRequest` between the two, and `recordState` after the
provider. Each piece runs without interruption. A clock reading is an argument
of the piece that makes it, and `budget` is the stack left to the normalizer.
-/

namespace MediaBridge.Gateway

open Foundation MediaBridge.Core

/-- `^[a-z][a-z0-9_-]{0,31}$`. -/
def scopeWord : Str → Bool
  | [] => false
  | c :: rest =>
      c.isAsciiLower && rest.length ≤ 31 && rest.all fun d =>
        d.isAsciiLower || d.isAsciiDigit || d == cp 95 || d == cp 45

/-- Two words with a colon between them. -/
def scopePattern (s : Str) : Bool :=
  match Str.splitOn (cp 58) s with
  | [resource, operation] => scopeWord resource && scopeWord operation
  | _ => false

/-- Who sends a request, after authentication. -/
structure DataPlaneSubject where
  credentialSelector : Str
  tenantId : Str
  scopes : List Str
  selector_valid : responseIdPattern credentialSelector = true
  tenant_valid : tenantIdPattern tenantId = true
  scopes_valid : scopes ≠ [] ∧ ∀ scope ∈ scopes, scopePattern scope = true

structure GatewayTransaction where
  gate : PreRequestGate
  signer : GateReceiptSigner
  snapshotVersion : Nat

/-- Why a turn ends early: a structured refusal, or an exception of the normalizer. -/
inductive Stop
  | blocked (code message : String) (httpStatus : Nat)
  | raised (e : Raised)
deriving DecidableEq

/-- What is known of a turn when it reaches the gate. -/
structure Admission where
  normalized : NormalizedResponsesRequest
  previous : Option GatewayStateRecord

namespace GatewayTransaction

/-- `_media_part_to_response`; `none` is a `DownstreamGuardError`. -/
def mediaPartToResponse (part : MediaPart) : Option Json :=
  match part.source, part.mediaType with
  | .base64 data, .image =>
      let mime := match part.declaredMime with
        | some m => if m.value.isEmpty then lit "image/png" else m.value
        | none => lit "image/png"
      some (.obj [(lit "type", .str (lit "input_image")),
        (lit "image_url", .str (lit "data:" ++ mime ++ lit ";base64," ++ data.value))])
  | .base64 data, .pdf =>
      some (.obj [(lit "type", .str (lit "input_file")),
        (lit "file_data", .str (lit "data:application/pdf;base64," ++ data.value))])
  | _, _ => none

/-- One part of the gated content, as the provider reads it. -/
def rebuiltPart : ContentPart → Option Json
  | .text part =>
      some (.obj [(lit "type", .str (lit "input_text")), (lit "text", .str part.text.value)])
  | .media part => mediaPartToResponse part

/-- `_rebuilt_input`; `none` is a `DownstreamGuardError`. -/
def rebuiltInput (content : List ContentPart) : Option Json := do
  let items ← content.mapM rebuiltPart
  if items.isEmpty then none
  else return .arr [.obj [(lit "type", .str (lit "message")), (lit "role", .str (lit "user")),
    (lit "content", .arr items)]]

/-- The keys of a payload that are never copied into a rebuilt one. -/
def rebuiltKeys : List String := ["model", "input", "previous_response_id", "conversation"]

/-- The entries that a rebuilt payload takes over. -/
def copiedEntries (payload : Entries Str Json) : Entries Str Json :=
  payload.filter fun e => !rebuiltKeys.any fun key => decide (e.1 = lit key)

/-- Nothing has to be rebuilt: no media now, and no earlier turn. -/
def passesWhole (normalized : NormalizedResponsesRequest) : Bool :=
  !normalized.inputHadMedia && normalized.previousState.isNone

/-- `_build_downstream_payload`; `none` is a `DownstreamGuardError`. -/
def buildDownstreamPayload (payload : Entries Str Json)
    (normalized : NormalizedResponsesRequest) (prepared : DownstreamPayload) :
    Option (Entries Str Json) :=
  if passesWhole normalized then
    let rebuilt := Entries.erase (Entries.erase payload (lit "previous_response_id"))
      (lit "conversation")
    some (Entries.set rebuilt (lit "model") (.str prepared.targetId))
  else do
    let input ← rebuiltInput prepared.content
    let rebuilt := Entries.set (copiedEntries payload) (lit "model") (.str prepared.targetId)
    return Entries.set rebuilt (lit "input") input

variable (tx : GatewayTransaction)

/-- The first lookup of `invoke`: the state that the payload refers to. -/
def findState (store : GatewayStateStore) (now : ℚ) (payload : Json)
    (subject : DataPlaneSubject) :
    GatewayStateStore × Except Stop (Option GatewayStateRecord) :=
  match payload.obj? with
  | none => (store, .ok none)
  | some fields =>
      match (Json.field fields "previous_response_id").str? with
      | none => (store, .ok none)
      | some previousId =>
          match store.resolve now previousId subject.tenantId subject.credentialSelector with
          | (store, some record) => (store, .ok (some record))
          | (store, none) =>
              (store, .error
                (.blocked "state_unavailable" "Responses state is unavailable." 400))

/-- `_check_state_capability`: the refusal, if there is one. -/
def checkStateCapability (now : Instant) (normalized : NormalizedResponsesRequest) :
    Option Stop :=
  match normalized.previousState with
  | none => none
  | some state =>
      if !state.mediaTainted then none
      else
        let resolution :=
          tx.gate.registry.resolve normalized.request.target.registryId.value now
        match resolution.capability with
        | none => some (.blocked "capability_unknown" "Target capability is unknown." 400)
        | some capability =>
            if resolution.state = .unknown then
              some (.blocked "capability_unknown" "Target capability is unknown." 400)
            else if resolution.state = .stale then
              some (.blocked "capability_stale" "Target capability is stale." 400)
            else if resolution.state ≠ .vision then
              some (.blocked "tainted_state_nonvision"
                "Media-tainted state cannot be sent to a Non-Vision target." 400)
            else if !capability.supportsAll state.mediaModalities then
              some (.blocked "tainted_state_unsupported"
                "Target does not support all media modalities in prior state." 400)
            else if MediaType.pdf ∈ state.mediaModalities ∧
                ¬ capability.pdfPassthroughVerified then
              some (.blocked "pdf_passthrough_unverified"
                "Target PDF passthrough capability is not verified." 400)
            else none

/-- Normalization and the check of the earlier state. -/
def normalizeAndCheck (budget : Nat) (gateNow : Instant) (payload : Json)
    (previous : Option GatewayStateRecord) : Except Stop Admission :=
  match OpenaiResponses.normalizeResponsesRequest tx.gate.unicode budget payload
      (previous.map GatewayStateRecord.forNormalizer) with
  | .error (.normalization code message) => .error (.blocked code message 400)
  | .error e => .error (.raised e)
  | .ok normalized =>
      match tx.checkStateCapability gateNow normalized with
      | some stop => .error stop
      | none => .ok ⟨normalized, previous⟩

/-- `invoke` up to the gate. -/
def beginTurn (budget : Nat) (store : GatewayStateStore) (now : ℚ) (gateNow : Instant)
    (payload : Json) (subject : DataPlaneSubject) :
    GatewayStateStore × Except Stop Admission :=
  if lit "responses:invoke" ∉ subject.scopes then
    (store, .error (.blocked "credential_scope_denied"
      "Data-plane credential is not authorized for Responses." 403))
  else
    match findState store now payload subject with
    | (store, .error stop) => (store, .error stop)
    | (store, .ok previous) => (store, tx.normalizeAndCheck budget gateNow payload previous)

/-- Why a request is not sealed: `failed` is the refusal `gateway_sealing_failed`. -/
inductive SealError
  | failed
  | recursionError
deriving DecidableEq

/-- A step of the sealing whose failure is a refusal. -/
def sealing {α : Type} : Option α → Except SealError α
  | some a => .ok a
  | none => .error .failed

/-- The gate's receipt is verified against what it prepared. -/
def verifyPrepared (now : ℚ) (prepared : DownstreamPayload) : Except SealError Unit :=
  match Receipts.verify tx.gate.platform tx.signer now prepared.receipt prepared.binding with
  | .ok _ => .ok ()
  | .error .recursionError => .error .recursionError
  | .error _ => .error .failed

/-- `secrets.token_urlsafe(18)` from its 18 random bytes. -/
def requestNonce (entropy : { data : Bytes // data.length = 18 }) : Str :=
  Base64.encodeUrl entropy.val

/-- The `try` block of `invoke` that seals the request. -/
def sealRequest (verifiedAt signedAt : ℚ) (entropy : { data : Bytes // data.length = 18 })
    (payload : Entries Str Json) (normalized : NormalizedResponsesRequest)
    (prepared : DownstreamPayload) : Except SealError SealedGatewayRequest := do
  tx.verifyPrepared verifiedAt prepared
  let downstream ← sealing (buildDownstreamPayload payload normalized prepared)
  let inputDigest ← sealing (digestGatewayPayload tx.gate.platform (.obj payload))
  let nonce := requestNonce entropy
  let outputDigest ← sealing (sealedDigest tx.gate.platform downstream nonce)
  let binding : ReceiptBinding :=
    ⟨prepared.targetId, prepared.capability, inputDigest, outputDigest, prepared.action⟩
  let receipt ← sealing (Receipts.sign tx.gate.platform tx.signer signedAt binding 30)
  return {
    targetId := binding.targetId
    capability := binding.capability
    action := binding.action
    payload := downstream
    inputDigest := binding.inputDigest
    outputDigest := binding.outputDigest
    receipt := receipt
    requestNonce := nonce
    snapshotVersion := tx.snapshotVersion }

/-- The modalities a turn leaves behind: its own and those of the state it follows. -/
def stateModalities (normalized : NormalizedResponsesRequest) (prepared : DownstreamPayload) :
    Finset MediaType :=
  (detectMedia prepared.content).modalities ∪
    match normalized.previousState with
    | some state => state.mediaModalities
    | none => ∅

/-- What `_record_state` hands to the store. -/
def stateEntry (responseId : Str) (subject : DataPlaneSubject)
    (normalized : NormalizedResponsesRequest) (prepared : DownstreamPayload) : StateEntry where
  responseId := responseId
  tenantId := subject.tenantId
  credentialSelector := subject.credentialSelector
  sanitizedText := Gate.joinText prepared.content
  mediaTainted := decide (stateModalities normalized prepared ≠ ∅)
  mediaModalities := stateModalities normalized prepared
  targetId := prepared.targetId
  snapshotVersion := tx.snapshotVersion

/-- `_record_state`; `none` is a `ValueError`. -/
def recordState (store : GatewayStateStore) (now : ℚ) (responseId : Str)
    (subject : DataPlaneSubject) (normalized : NormalizedResponsesRequest)
    (prepared : DownstreamPayload) : Option (GatewayStateStore × GatewayStateRecord) :=
  store.put now (tx.stateEntry responseId subject normalized prepared)

end GatewayTransaction

end MediaBridge.Gateway
