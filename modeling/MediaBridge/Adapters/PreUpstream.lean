import MediaBridge.Adapters.MediaScan
import MediaBridge.Core.Receipts
import MediaBridge.Foundation.JsonEncoded
import MediaBridge.Foundation.UrlSplit
import MediaBridge.Gateway.State

/-!
# Preparation of a request before its upstream call

`media_bridge_adapters/service.py` with its contracts in `media_bridge_adapters/contracts.py`: a
request body is normalized for the gateway, and its answer is turned into a signed decision.

## Implementation notes

The gateway is a function of the payload. A request body is far less nested than the interpreter's
stack allows, since the request parser has a limit of its own.
-/

namespace MediaBridge.Adapters

open Foundation MediaBridge.Core Gateway

section Contracts

/-- `_IDENTIFIER`: a letter or digit, and at most 127 of these or of `.`, `_`, `:`, `/` and `-`. -/
def adapterIdPattern : Str → Bool :=
  identifierPattern CodePoint.isAsciiAlnum fun c =>
    c.isAsciiAlnum || c == cp 46 || c == cp 95 || c == cp 58 || c == cp 47 || c == cp 45

abbrev Identifier := Constrained 128 adapterIdPattern

/-- A `PreUpstreamRequest`; its contract version and its wire format are constants. -/
structure PreUpstreamRequest where
  requestId : Identifier
  provider : Identifier
  targetModel : Identifier
  body : Entries Str Json
  wellFormed : Json.WellFormed (.obj body)

/-- `Literal["unchanged", "prepared", "blocked"]`. -/
inductive DecisionStatus
  | unchanged
  | prepared
  | blocked
deriving DecidableEq

/-- The value of the literal. -/
def DecisionStatus.value : DecisionStatus → Str
  | .unchanged => lit "unchanged"
  | .prepared => lit "prepared"
  | .blocked => lit "blocked"

/-- `Literal["vision", "non_vision"]`. -/
inductive TargetCapability
  | vision
  | nonVision
deriving DecidableEq

/-- The value of the literal. -/
def TargetCapability.value : TargetCapability → Str
  | .vision => lit "vision"
  | .nonVision => lit "non_vision"

structure AdapterSafeError where
  code : Str
  message : Str
deriving DecidableEq

/-- The fields of a `PreUpstreamResult`. -/
structure PreUpstreamResult where
  status : DecisionStatus
  provider : Str
  targetModel : Str
  capability : Option TargetCapability
  body : Option (Entries Str Json)
  originalMediaRemoved : Bool
  inputDigest : Option Str
  outputDigest : Option Str
  decisionToken : Option Str
  error : Option AdapterSafeError

/-- The characters of `[a-f0-9]`. -/
def digestChar (c : CodePoint) : Bool := c.isAsciiDigit || (97 ≤ c.val && c.val ≤ 102)

/-- `^[a-f0-9]{64}$`. -/
def digestPattern (s : Str) : Bool := decide (s.length = 64) && s.all digestChar

/-- `^[A-Za-z0-9_-]{43}$`. -/
def tokenPattern (s : Str) : Bool := decide (s.length = 43) && s.all urlSafeChar

namespace PreUpstreamResult

variable (result : PreUpstreamResult)

/-- `decision_fields` has no `None`. -/
def complete : Bool :=
  result.capability.isSome && result.body.isSome && result.inputDigest.isSome &&
    result.outputDigest.isSome && result.decisionToken.isSome

/-- `decision_fields` has nothing else. -/
def bare : Bool :=
  result.capability.isNone && result.body.isNone && result.inputDigest.isNone &&
    result.outputDigest.isNone && result.decisionToken.isNone

/-- `validate_decision_shape`. -/
def shapeAccepted : Bool :=
  if result.status = .blocked then
    result.bare && result.error.isSome && !result.originalMediaRemoved
  else
    result.complete && result.error.isNone &&
      !(decide (result.capability = some .nonVision) && !result.originalMediaRemoved)

/-- The constraints on the fields and the shape of the whole. -/
def accepted : Bool :=
  adapterIdPattern result.provider && adapterIdPattern result.targetModel &&
    result.inputDigest.all digestPattern && result.outputDigest.all digestPattern &&
    result.decisionToken.all tokenPattern &&
    result.error.all (fun error => errorCodePattern error.code &&
      decide (error.message.length ≤ 200)) && result.shapeAccepted

/-- `PreUpstreamResult(...)`. -/
def validated : Except AdapterError PreUpstreamResult :=
  if result.accepted then .ok result else .error .other

end PreUpstreamResult

/-- A `GatewayPrepareResponse`. -/
structure GatewayPrepareResponse where
  action : GateAction
  targetModel : Str
  containsMedia : Bool
  containsImage : Bool
  containsPdf : Bool
  targetSupportsVision : Option Bool
  sanitizedText : Option Str
  originalImageRemoved : Bool
  error : Option SafeError

/-- Why there is no answer: a `GatewayPrepareError`, or an answer that is no
`GatewayPrepareResponse`. -/
inductive GatewayFailure
  | raised (code : Constrained 64 errorCodePattern)
  | invalid

end Contracts

section Payload

/-- The `source` of a media part. -/
inductive PayloadSource
  | assetId (id : Str)
  | base64 (data : Str)
  | url (url : Str)
deriving DecidableEq

/-- A part of `content`. -/
inductive PayloadPart
  | text (text : Str)
  | media (mediaType : MediaType) (source : PayloadSource) (declaredMime filename : Option Str)
deriving DecidableEq

/-- What the gateway is asked. -/
structure PreparePayload where
  content : List PayloadPart
  registryId : Str
  conversionProfile : ConversionProfile
deriving DecidableEq

/-- `_IMAGE_MIMES`. -/
def imageMimes : List String := ["image/png", "image/jpeg", "image/webp"]

/-- The media type of a header `data:...;base64`. -/
def headerMime (header : Str) : Str :=
  let rest := header.drop 5
  if lit ";base64" <:+ rest then rest.take (rest.length - 7) else rest

/-- `_base64_source`. -/
def base64Source (locator : Str) (allowedMimes : List String) : Except AdapterError (Str × Str) :=
  if ¬ Str.startsWith locator (lit "data:") ∨ ¬ Str.contains locator (lit ";base64,") then
    .error .normalization
  else
    let (header, encoded) := Str.partitionAt (cp 44) locator
    let mime := headerMime header
    if header ≠ lit "data:" ++ mime ++ lit ";base64" ∨ (∀ allowed ∈ allowedMimes, mime ≠ lit allowed) ∨
        encoded.getD [] = [] then
      .error .normalization
    else
      match Base64.decode (encoded.getD []) with
      | none => .error .normalization
      | some raw =>
          if raw = [] ∨ 2 * 1024 * 1024 < raw.length then .error .normalization
          else .ok (mime, encoded.getD [])

/-- `parsed.username or parsed.password`. -/
def namesUser (parsed : SplitResult) : Bool :=
  let userinfo := (parsed.netloc.rdropWhile fun c => c ≠ UrlSplit.atSign).dropLast
  let (username, password) := Str.partitionAt UrlSplit.colon userinfo
  !username.isEmpty || password.any fun text => !text.isEmpty

/-- `_image_part`. -/
def imagePart (U : UnicodeData) (part : Entries Str Json) : Except AdapterError PayloadPart :=
  match (Json.field part "asset_id").str?, Json.field part "image_url" with
  | some id, .null => .ok (.media .image (.assetId id) none none)
  | _, .str locator =>
      if Str.startsWith locator (lit "data:") then
        (base64Source locator imageMimes).map fun found =>
          .media .image (.base64 found.2) (some found.1) none
      else
        match UrlSplit.urlsplit U locator with
        | none => .error .other
        | some parsed =>
            if parsed.scheme ≠ lit "https" ∨ parsed.hostText = [] ∨ namesUser parsed ∨
                parsed.fragment ≠ [] then
              .error .normalization
            else .ok (.media .image (.url locator) none none)
  | _, _ => .error .normalization

/-- `_file_part`. -/
def filePart (part : Entries Str Json) : Except AdapterError PayloadPart :=
  let filename := (Json.field part "filename").str?
  match (Json.field part "asset_id").str?, Json.field part "file_data" with
  | some id, .null => .ok (.media .pdf (.assetId id) (some (lit "application/pdf")) filename)
  | _, .str locator =>
      (base64Source locator ["application/pdf"]).map fun found =>
        .media .pdf (.base64 found.2) (some (lit "application/pdf")) filename
  | _, _ => .error .normalization

/-- One part of the content of the current message. -/
def contentPart (U : UnicodeData) : Json → Except AdapterError PayloadPart
  | .obj raw =>
      if (Json.field raw "type").isLit "input_text" && (Json.field raw "text").str?.isSome then
        .ok (.text ((Json.field raw "text").str?.getD []))
      else if (Json.field raw "type").isLit "input_image" then imagePart U raw
      else if (Json.field raw "type").isLit "input_file" then filePart raw
      else .error .normalization
  | _ => .error .normalization

/-- A message of the user. -/
def isUser : Json → Bool
  | .obj item => (Json.field item "role").isLit "user"
  | _ => false

/-- `user_indices[-1]`. -/
def currentIndex (items : List Json) : Option Nat :=
  (List.range items.length).reverse.find? fun i => items[i]?.any isUser

/-- `_current_message`. -/
def currentMessage (U : UnicodeData) (body : Entries Str Json) :
    Except AdapterError (List PayloadPart × Option Nat) :=
  match Json.field body "input" with
  | .str text => if text = [] then .error .normalization else .ok ([.text text], none)
  | .arr items =>
      match currentIndex items with
      | none => .error .normalization
      | some index =>
          match anyItem U (items.eraseIdx index) with
          | .error e => .error e
          | .ok true => .error .normalization
          | .ok false =>
              match items[index]? with
              | some (.obj current) =>
                  match Json.field current "content" with
                  | .arr raws => (raws.mapM (contentPart U)).map fun parts => (parts, some index)
                  | _ => .error .normalization
              | _ => .error .normalization
  | _ => .error .normalization

def PayloadPart.isPdf : PayloadPart → Bool
  | .media .pdf _ _ _ => true
  | _ => false

/-- `_prepare_payload`. -/
def preparePayload (U : UnicodeData) (request : PreUpstreamRequest) :
    Except AdapterError (PreparePayload × Option Nat) :=
  match anyValue U (request.body.filter fun e => e.1 ≠ lit "input") with
  | .error e => .error e
  | .ok true => .error .normalization
  | .ok false =>
      (currentMessage U request.body).map fun (content, index) =>
        ({ content := content
           registryId := request.targetModel.value
           conversionProfile := if content.any PayloadPart.isPdf then .document else .generic },
          index)

end Payload

section Decisions

/-- The body for the target, without the references to earlier responses. -/
def retargeted (request : PreUpstreamRequest) : Entries Str Json :=
  ((request.body.erase (lit "previous_response_id")).erase (lit "conversation")).set (lit "model")
    (.str request.targetModel.value)

/-- The message of the user with a prepared text. -/
def userMessage (text : Str) : Json :=
  .obj [(lit "type", .str (lit "message")), (lit "role", .str (lit "user")),
    (lit "content", .arr [.obj [(lit "type", .str (lit "input_text")), (lit "text", .str text)]])]

/-- `_rewritten_body`. -/
def rewrittenBody (request : PreUpstreamRequest) (text : Str) :
    Option Nat → Except AdapterError (Entries Str Json)
  | none => .ok (Entries.set (retargeted request) (lit "input") (.str text))
  | some index =>
      match Json.field (retargeted request) "input" with
      | .arr items =>
          match items[index]? with
          | some (.obj _) => .ok (Entries.set (retargeted request) (lit "input")
              (.arr (items.set index (userMessage text))))
          | _ => .error .normalization
      | _ => .error .normalization

/-- What a decision says about the request. -/
structure Draft where
  status : DecisionStatus
  capability : TargetCapability
  body : Entries Str Json
  removed : Bool

/-- A `PreUpstreamService`, with the hash functions of the interpreter. -/
structure PreUpstreamService where
  platform : Platform
  unicode : UnicodeData
  decisionSecret : Bytes
  secret_length : 32 ≤ decisionSecret.length
  sha256_length : ∀ data, (platform.sha256 data).length = 32
  hmac_length : ∀ key data, (platform.hmacSha256 key data).length = 32

/-- The options of `_digest`. -/
def digestStyle : JsonText.Style := ⟨false, true, false⟩

namespace PreUpstreamService

variable (S : PreUpstreamService) (request : PreUpstreamRequest)

/-- `_digest`. -/
def digest (v : Json) : Except AdapterError Str :=
  match (JsonText.dumps S.platform.float digestStyle v).bind Utf8.encode with
  | none => .error .other
  | some data => .ok (S.platform.sha256Hex data)

/-- The decision that an answer leads to. -/
def draft (index : Option Nat) (answer : GatewayPrepareResponse) : Except AdapterError Draft :=
  if answer.action = .converted then
    match answer.sanitizedText with
    | none => .error .normalization
    | some text =>
        if text = [] ∨ ¬ answer.originalImageRemoved then .error .normalization
        else (rewrittenBody request text index).map fun body => ⟨.prepared, .nonVision, body, true⟩
  else if answer.targetSupportsVision = some true then
    .ok ⟨.unchanged, .vision, retargeted request, !answer.containsMedia⟩
  else
    match mediaReference S.unicode (.obj (retargeted request)) with
    | .error e => .error e
    | .ok true => .error .normalization
    | .ok false => .ok ⟨.unchanged, .nonVision, retargeted request, !answer.containsMedia⟩

/-- What a decision token signs. -/
def signedText (draft : Draft) (inputDigest outputDigest : Str) : Str :=
  Str.join [cp 0] [request.provider.value, request.targetModel.value, draft.capability.value,
    draft.status.value, inputDigest, outputDigest, if draft.removed then lit "1" else lit "0"]

/-- The signed decision. -/
def signed (draft : Draft) : Except AdapterError PreUpstreamResult :=
  match S.digest (.obj request.body), S.digest (.obj draft.body) with
  | .ok inputDigest, .ok outputDigest =>
      match Utf8.encode (signedText request draft inputDigest outputDigest) with
      | none => .error .other
      | some data => PreUpstreamResult.validated {
          status := draft.status
          provider := request.provider.value
          targetModel := request.targetModel.value
          capability := some draft.capability
          body := some draft.body
          originalMediaRemoved := draft.removed
          inputDigest := some inputDigest
          outputDigest := some outputDigest
          decisionToken := some
            (Base64.encodeUrl (S.platform.hmacSha256 S.decisionSecret data))
          error := none }
  | _, _ => .error .other

/-- `_blocked`. -/
def blocked (code : Str) (message : String) : PreUpstreamResult where
  status := .blocked
  provider := request.provider.value
  targetModel := request.targetModel.value
  capability := none
  body := none
  originalMediaRemoved := false
  inputDigest := none
  outputDigest := none
  decisionToken := none
  error := some ⟨code, lit message⟩

/-- `prepare`, with the gateway as a function. -/
def prepare (gateway : PreparePayload → Except GatewayFailure GatewayPrepareResponse) :
    PreUpstreamResult :=
  match preparePayload S.unicode request with
  | .error .normalization => blocked request (lit "invalid_request")
      "Request media could not be normalized safely."
  | .error .other => blocked request (lit "gateway_invalid_response")
      "Media Bridge Gateway returned an invalid decision."
  | .ok (payload, index) =>
      match gateway payload with
      | .error (.raised code) => blocked request code.value
          "Media Bridge Gateway did not prepare the request."
      | .error .invalid => blocked request (lit "gateway_invalid_response")
          "Media Bridge Gateway returned an invalid decision."
      | .ok answer =>
          if answer.targetModel ≠ request.targetModel.value then
            blocked request (lit "target_mismatch")
              "Prepared target did not match the resolved target."
          else if answer.action = .blocked ∨ answer.targetSupportsVision = none then
            blocked request
              ((answer.error.map fun error => error.code.value).getD (lit "pre_request_blocked"))
              "Media Bridge Gateway blocked the request."
          else
            match (S.draft request index answer).bind (S.signed request) with
            | .error _ => blocked request (lit "sanitization_failed")
                "Prepared request failed safety validation."
            | .ok result => result

end PreUpstreamService

end Decisions

end MediaBridge.Adapters
