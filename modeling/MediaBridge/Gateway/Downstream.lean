import MediaBridge.Core.Contracts
import MediaBridge.Core.MediaReference
import MediaBridge.Core.Receipts

/-!
# The guard in front of a provider

The parts of `media_bridge_gateway/downstream.py` that decide whether a sealed
request may leave: the seal, the replay guard, and the prompt that a text
provider is given.

## Implementation notes

`stack` is the number of nested calls left to the search for media references.
The other traversals of the payload go no deeper than the ones the normalizer
has already made.
-/

namespace MediaBridge.Gateway

open Foundation MediaBridge.Core

/-- What the transaction hands to the provider boundary. -/
structure SealedGatewayRequest where
  targetId : Str
  capability : Str
  action : Str
  payload : Entries Str Json
  inputDigest : Str
  outputDigest : Str
  receipt : Str
  requestNonce : Str
  snapshotVersion : Int := 0

def SealedGatewayRequest.binding (sealed : SealedGatewayRequest) : ReceiptBinding where
  targetId := sealed.targetId
  capability := sealed.capability
  inputDigest := sealed.inputDigest
  outputDigest := sealed.outputDigest
  action := sealed.action

/-- The style of a canonical payload. -/
def canonicalStyle : JsonText.Style := ⟨false, true, false⟩

/-- `digest_gateway_payload`; `none` is a `ValueError`. -/
def digestGatewayPayload (P : Platform) (payload : Json) : Option Str := do
  let text ← JsonText.dumps P.float canonicalStyle payload
  let data ← Utf8.encode text
  return P.sha256Hex data

/-- The digest of a payload together with the nonce of the request. -/
def sealedDigest (P : Platform) (payload : Entries Str Json) (nonce : Str) : Option Str :=
  digestGatewayPayload P (.obj [(lit "payload", .obj payload), (lit "request_nonce", .str nonce)])

/-- `^[A-Za-z0-9_-]{16,64}$`. -/
def noncePattern (s : Str) : Bool :=
  16 ≤ s.length && s.length ≤ 64 && s.all urlSafeChar

/-- Why the guard does not let a request pass. `rejected` is the
`DownstreamGuardError`; the others are exceptions it does not turn into one. -/
inductive GuardError
  | rejected (message : String)
  | unicodeError
  | recursionError
  | overflowError
deriving DecidableEq

/-- The message of an error that the verification of a receipt raises. -/
def GuardError.ofVerify : Receipts.VerifyError → GuardError
  | .invalid _ => .rejected "downstream payload has no valid receipt"
  | .unicodeError => .unicodeError
  | .recursionError => .recursionError
  | .overflowError => .overflowError

variable (U : UnicodeData) (P : Platform)

/-- The checks of `_verify_seal` after the receipt. -/
def verifyBoundary (stack : Nat) (sealed : SealedGatewayRequest) : Except GuardError Unit :=
  if ¬ (sealed.capability = lit "non_vision" ∨ sealed.capability = lit "vision") then
    .error (.rejected "downstream capability is not active and exact")
  else if ¬ (sealed.action = lit "passthrough" ∨ sealed.action = lit "converted") then
    .error (.rejected "downstream action is not permitted")
  else if sealed.action = lit "converted" ∧ sealed.capability ≠ lit "non_vision" then
    .error (.rejected "converted payload has an invalid capability boundary")
  else if (Json.field sealed.payload "model").str? ≠ some sealed.targetId then
    .error (.rejected "downstream target does not match the sealed target")
  else if !(Json.field sealed.payload "previous_response_id").isNull then
    .error (.rejected "downstream payload contains server-side state")
  else if !(Json.field sealed.payload "conversation").isNull then
    .error (.rejected "downstream payload contains server-side conversation state")
  else if sealed.capability = lit "non_vision" then
    match MediaReference.containsMediaReference U stack (.obj sealed.payload) with
    | .clean => .ok ()
    | .found => .error (.rejected "non-vision downstream payload contains media")
    | .tooDeep => .error .recursionError
  else .ok ()

/-- `_verify_seal`. -/
def verifySeal (stack : Nat) (signer : GateReceiptSigner) (now : ℚ)
    (sealed : SealedGatewayRequest) : Except GuardError Unit :=
  if !noncePattern sealed.requestNonce then
    .error (.rejected "downstream request nonce is invalid")
  else
    match sealedDigest P sealed.payload sealed.requestNonce with
    | none => .error (.rejected "downstream payload digest could not be computed")
    | some computed =>
        if computed ≠ sealed.outputDigest then
          .error (.rejected "downstream payload digest does not match the receipt")
        else
          match Receipts.verify P signer now sealed.receipt sealed.binding with
          | .error e => .error (.ofVerify e)
          | .ok _ => verifyBoundary U stack sealed

/-- `_ReceiptReplayGuard`: the digest of each receipt seen, with its expiry. -/
abbrev ReplayGuard := Entries Str ℚ

namespace ReplayGuard

/-- How long the guard remembers a receipt. -/
def retentionSeconds : ℚ := 300

/-- The entries that have not expired. -/
def purged (used : ReplayGuard) (now : ℚ) : ReplayGuard :=
  used.filter fun e => decide (now < e.2)

/-- `consume`. -/
def consume (maxEntries : Nat) (used : ReplayGuard) (now : ℚ) (receipt : Str) :
    Except GuardError ReplayGuard :=
  match Utf8.encode receipt with
  | none => .error .unicodeError
  | some data =>
      let digest := P.sha256Hex data
      let used := purged used now
      if Entries.has used digest then .error (.rejected "sealed receipt replay was rejected")
      else if maxEntries ≤ used.length then
        .error (.rejected "receipt replay state is at capacity")
      else .ok (Entries.set used digest (now + retentionSeconds))

end ReplayGuard

mutual

/-- `collect`: the texts of all `input_text` dictionaries, in order. -/
def collectTexts : Json → List Str
  | .obj fields =>
      (if (Json.field fields "type").isLit "input_text" then
        ((Json.field fields "text").str?).toList else []) ++ collectValues fields
  | .arr items => collectItems items
  | .null => []
  | .bool _ => []
  | .int _ => []
  | .float _ => []
  | .str _ => []

/-- The texts in the items of a list. -/
def collectItems : List Json → List Str
  | [] => []
  | v :: rest => collectTexts v ++ collectItems rest

/-- The texts in the values of a dictionary. -/
def collectValues : List (Str × Json) → List Str
  | [] => []
  | (_, v) :: rest => collectTexts v ++ collectValues rest

end

/-- `_text_from_responses_payload`: the prompt of a text provider. -/
def textFromResponsesPayload (payload : Entries Str Json) : Str :=
  match Json.field payload "input" with
  | .str s => s.strip
  | input =>
      Str.join (lit "\n\n") (((collectTexts input).map Str.strip).filter fun s => !s.isEmpty)

end MediaBridge.Gateway
