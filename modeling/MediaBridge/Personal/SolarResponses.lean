import MediaBridge.Gateway.Transaction
import MediaBridge.Personal.Composition

/-!
# What the personal runtime sends

`PersonalRuntime.invoke` of `media_bridge_personal/npm_runtime.py` up to the request that
`SolarResponsesDownstream.invoke` of `media_bridge_personal/solar_responses.py` posts.

## Implementation notes

The transaction, the gate and the normalizer of `media_bridge_local` are copies of those of the
gateway that differ only for media; the gateway's are used. `stack` and `budget` are the nested
calls that are left, and a clock reading is an argument of what makes it.
-/

namespace MediaBridge.Personal

open Foundation MediaBridge.Core Gateway

/-- Why no request is posted. -/
inductive RequestStop
  | modelUnavailable
  /-- A refusal of the transaction. -/
  | blocked (code message : String) (httpStatus : Nat)
  /-- A refusal of the gate, whose error is part of the answer. -/
  | gateBlocked
  /-- The `DownstreamGuardError`. -/
  | guard (message : String)
  /-- The `DownstreamError` for credentials that cannot be loaded. -/
  | configuration
  | raised
deriving DecidableEq

/-- What is posted. -/
structure ProviderRequest where
  endpoint : Str
  secret : Str
  payload : Entries Str Json
  content : Bytes

section Translation

/-- `v in {...}` over string constants: a list or a dictionary has no hash. -/
def isOneOf (v : Json) (names : List String) : Except RequestStop Bool :=
  if v.hashable then .ok (names.any fun name => v.isLit name) else .error .raised

/-- The text of one part of a message. -/
def partText : Json → Except RequestStop Str
  | .obj part => do
      let known ← isOneOf (Json.field part "type") ["input_text", "output_text"]
      if ¬ known then
        .error (.guard "Responses message contains unsupported non-text content")
      else
        match ((Json.field part "text").str?.getD []).strip with
        | [] => .error (.guard "Responses message text is empty")
        | text => .ok text
  | _ => .error (.guard "Responses message contains unsupported non-text content")

/-- `_text_content`. -/
def textContent : Json → Except RequestStop Str
  | .str s =>
      if s.strip = [] then .error (.guard "Responses message text is empty") else .ok s.strip
  | .arr [] => .error (.guard "Responses message content is empty")
  | .arr items => (Str.join (lit "\n")) <$> items.mapM partText
  | _ => .error (.guard "Responses message content is unsupported")

/-- A role and a text. -/
abbrev ChatMessage := Str × Str

/-- One item of a list of messages. -/
def itemMessage : Json → Except RequestStop ChatMessage
  | .obj item =>
      if ¬ ((Entries.get? item (lit "type")).getD (.str (lit "message"))).isLit "message" then
        .error (.guard "Responses input item is unsupported")
      else do
        let role := Json.field item "role"
        let known ← isOneOf role ["user", "assistant", "system", "developer"]
        if ¬ known then .error (.guard "Responses message role is unsupported")
        else do
          let text ← textContent (Json.field item "content")
          return (if role.isLit "developer" then lit "system" else role.str?.getD [], text)
  | _ => .error (.guard "Responses input item is unsupported")

/-- The messages of the instructions. -/
def instructionMessages (payload : Entries Str Json) : Except RequestStop (List ChatMessage) :=
  match Json.field payload "instructions" with
  | .null => .ok []
  | .str s => .ok (if s.strip = [] then [] else [(lit "system", s.strip)])
  | _ => .error (.guard "Responses instructions are invalid")

/-- The messages of the input. -/
def inputMessages : Json → Except RequestStop (List ChatMessage)
  | .str s => (fun text => [(lit "user", text)]) <$> textContent (.str s)
  | .arr items => items.mapM itemMessage
  | _ => .error (.guard "Responses input is missing or unsupported")

/-- `_chat_messages`. -/
def chatMessages (payload : Entries Str Json) : Except RequestStop (List ChatMessage) := do
  let instructions ← instructionMessages payload
  let input ← inputMessages (Json.field payload "input")
  match instructions ++ input with
  | [] => .error (.guard "Responses input is empty")
  | messages => .ok messages

/-- The description and the flag of a tool. -/
def toolOptions (source : Entries Str Json) : Except RequestStop (Entries Str Json) := do
  let description ← match Json.field source "description" with
    | .null => .ok []
    | .str s =>
        if s.strip = [] then
          .error (.guard "Responses function tool description is invalid")
        else .ok [(lit "description", .str s)]
    | _ => .error (.guard "Responses function tool description is invalid")
  match Entries.get? source (lit "strict") with
  | none => return description
  | some (.bool b) => return description ++ [(lit "strict", .bool b)]
  | some _ => .error (.guard "Responses function tool strict flag is invalid")

/-- One tool. -/
def chatTool : Json → Except RequestStop Json
  | .obj tool =>
      if ¬ (Json.field tool "type").isLit "function" then
        .error (.guard "Responses tool type is unsupported")
      else
        let source := (Json.field tool "function").obj?.getD tool
        match Json.field source "name", Json.field source "parameters" with
        | .str name, .obj parameters =>
            if name.strip = [] then .error (.guard "Responses function tool is invalid")
            else do
              let options ← toolOptions source
              return .obj [(lit "type", .str (lit "function")),
                (lit "function", .obj ([(lit "name", .str name),
                  (lit "parameters", .obj parameters)] ++ options))]
        | _, _ => .error (.guard "Responses function tool is invalid")
  | _ => .error (.guard "Responses tool type is unsupported")

/-- `_chat_tools`. -/
def chatTools (payload : Entries Str Json) : Except RequestStop (Option (List Json)) :=
  match Json.field payload "tools" with
  | .null => .ok none
  | .arr tools => some <$> tools.mapM chatTool
  | _ => .error (.guard "Responses tools are invalid")

/-- `reasoning_payload_fields` over the efforts of Solar, whose wire protocol is `openai-chat`; the
error is an `UnsupportedReasoningEffort`. -/
def reasoningPayloadFields (capability : Option ReasoningCapability) (effort : Str) :
    Except RequestStop (Entries Str Json) :=
  match capability with
  | none => .ok []
  | some capability =>
      if effort = lit "provider_default" then .ok []
      else
        match Entries.get? capability.wireValues effort with
        | none => .error .raised
        | some (.text value) => .ok [(lit "reasoning_effort", .str value)]
        | some (.number value) => .ok [(lit "reasoning_effort", .int value)]

end Translation

section Guard

variable (U : UnicodeData)

mutual

/-- `_contains_media`; the error is a `RecursionError`, or the `TypeError` for a type without a
hash. -/
def containsMedia : Nat → Json → Except RequestStop Bool
  | 0, _ => .error .raised
  | _ + 1, .str s => .ok (MediaReference.startsAsData U s)
  | n + 1, .arr items => anyItem n items
  | n + 1, .obj fields =>
      match isOneOf (Json.field fields "type") ["input_image", "input_file", "image_url"] with
      | .error e => .error e
      | .ok true => .ok true
      | .ok false => anyValue n fields
  | _ + 1, .null => .ok false
  | _ + 1, .bool _ => .ok false
  | _ + 1, .int _ => .ok false
  | _ + 1, .float _ => .ok false

/-- `any(_contains_media(item) for item in value)`. -/
def anyItem : Nat → List Json → Except RequestStop Bool
  | _, [] => .ok false
  | n, v :: rest =>
      match containsMedia n v with
      | .ok false => anyItem n rest
      | found => found

/-- `any(_contains_media(child) for child in item.values())`. -/
def anyValue : Nat → List (Str × Json) → Except RequestStop Bool
  | _, [] => .ok false
  | n, (_, v) :: rest =>
      match containsMedia n v with
      | .ok false => anyValue n rest
      | found => found

end

/-- What `verify` raises is a refusal, if it is the `ReceiptValidationError`. -/
def verifyStop : Receipts.VerifyError → RequestStop
  | .invalid _ => .guard "Solar payload has no valid receipt"
  | .unicodeError => .raised
  | .recursionError => .raised
  | .overflowError => .raised

/-- `SolarResponsesDownstream._verify_seal`. -/
def SolarResponsesDownstream.verifySeal (downstream : SolarResponsesDownstream) (P : Platform)
    (stack : Nat) (signer : GateReceiptSigner) (now : ℚ) (request : SealedGatewayRequest) :
    Except RequestStop Unit :=
  match sealedDigest P request.payload request.requestNonce with
  | none => .error (.guard "Solar payload digest could not be computed")
  | some computed =>
      if computed ≠ request.outputDigest then
        .error (.guard "Solar payload digest does not match the receipt")
      else do
        let _ ← (Receipts.verify P signer now request.receipt request.binding).mapError verifyStop
        if ¬ (request.capability = lit "non_vision" ∧
            (request.action = lit "passthrough" ∨ request.action = lit "converted")) then
          .error (.guard "Solar payload capability boundary is invalid")
        else if ¬ ((Json.field request.payload "model").str? = some request.targetId ∧
            request.targetId = downstream.model) then
          .error (.guard "Solar target does not match the sealed target")
        else do
          let found ← containsMedia U stack (.obj request.payload)
          if found then .error (.guard "Solar payload contains media") else .ok ()

end Guard

section Posting

variable (H : RuntimeHost) (downstream : SolarResponsesDownstream)

/-- The style of the body. -/
def bodyStyle : JsonText.Style := ⟨false, false, false⟩

/-- `4 * 1024 * 1024`. -/
def maxRequestBytes : Nat := 4 * 1024 * 1024

/-- A message in the input of the Responses protocol. -/
def responsesMessage (message : ChatMessage) : Json :=
  .obj [(lit "type", .str (lit "message")), (lit "role", .str message.1),
    (lit "content", .arr [.obj [(lit "type", .str (lit "input_text")),
      (lit "text", .str message.2)]])]

/-- A message of a chat. -/
def chatMessage (message : ChatMessage) : Json :=
  .obj [(lit "role", .str message.1), (lit "content", .str message.2)]

/-- The entry of a payload under a key, if it has one. -/
def copiedEntry (payload : Entries Str Json) (key : String) : Entries Str Json :=
  ((Entries.get? payload (lit key)).map fun v => (lit key, v)).toList

/-- `solar_payload`. -/
def solarPayload (payload : Entries Str Json) (messages : List ChatMessage)
    (tools : Option (List Json)) : Except RequestStop (Entries Str Json) :=
  if downstream.protocol = lit "openai-chat-completions" then do
    let fields ← reasoningPayloadFields (LlmBackends.reasoningCapability H.interpreter.casefold
      (lit "upstage-solar") downstream.protocol downstream.model) downstream.effort
    return [(lit "model", .str downstream.model), (lit "messages", .arr (messages.map chatMessage)),
      (lit "stream", .bool false)] ++ fields ++
        (tools.map fun items => (lit "tools", .arr items)).toList ++
          copiedEntry payload "tool_choice"
  else
    return [(lit "model", .str downstream.model),
      (lit "input", .arr (messages.map responsesMessage)), (lit "stream", .bool false)] ++
        copiedEntry payload "tools" ++ copiedEntry payload "tool_choice"

/-- The bytes of a payload; an encoding error is not caught. -/
def encodedPayload (payload : Entries Str Json) : Except RequestStop Bytes :=
  match JsonText.dumps H.interpreter.platform.float bodyStyle (.obj payload) with
  | none => .error .raised
  | some text =>
      match Utf8.encode text with
      | none => .error .raised
      | some content => .ok content

/-- `_credential_loader()`. -/
def loadSecret (credentials : PathContent) : Except RequestStop Str :=
  match resolveCredential H credentials downstream.credentialRef with
  | .ok secret => .ok secret
  | .error (.credentials _) => .error .configuration
  | .error _ => .error .raised

/-- `SolarResponsesDownstream.invoke` up to its request. -/
def SolarResponsesDownstream.request (credentials : PathContent) (signer : GateReceiptSigner)
    (stack : Nat) (now : ℚ) (sealed_ : SealedGatewayRequest) :
    Except RequestStop ProviderRequest := do
  downstream.verifySeal H.interpreter.unicode H.interpreter.platform stack signer now sealed_
  let messages ← chatMessages sealed_.payload
  let tools ← chatTools sealed_.payload
  let payload ← solarPayload H downstream sealed_.payload messages tools
  let content ← encodedPayload H payload
  if maxRequestBytes < content.length then
    .error (.guard "Solar request exceeded the configured limit")
  else do
    let secret ← loadSecret H downstream credentials
    return ⟨downstream.endpoint, secret, payload, content⟩

end Posting

section Invocation

/-- What a runtime has besides its settings, and what one of its requests meets. -/
structure RequestSetting where
  setOrder : SetOrder
  backends : Backends
  store : GatewayStateStore
  storeNow : ℚ
  gateNow : Instant
  gateSignedAt : ℚ
  verifiedAt : ℚ
  signedAt : ℚ
  guardedAt : ℚ
  entropy : { data : Bytes // data.length = 18 }
  budget : Nat
  stack : Nat

variable (H : RuntimeHost) (runtime : PersonalRuntime) (setting : RequestSetting)

/-- The transaction of the runtime. -/
def PersonalRuntime.transaction : GatewayTransaction where
  gate := {
    unicode := H.interpreter.unicode
    platform := H.interpreter.platform
    setOrder := setting.setOrder
    registry := runtime.modelRegistry
    backends := setting.backends
    signer := runtime.signer }
  signer := runtime.signer
  snapshotVersion := 0

theorem selector_personalSubject : responseIdPattern (lit "personal") = true := by decide

theorem tenant_personalSubject : tenantIdPattern (lit "personal") = true := by decide

theorem scopes_personalSubject : [lit "responses:invoke"] ≠ [] ∧
    ∀ scope ∈ [lit "responses:invoke"], scopePattern scope = true := by decide

/-- The subject of every request. -/
def personalSubject : DataPlaneSubject where
  credentialSelector := lit "personal"
  tenantId := lit "personal"
  scopes := [lit "responses:invoke"]
  selector_valid := selector_personalSubject
  tenant_valid := tenant_personalSubject
  scopes_valid := scopes_personalSubject

/-- `model_registry.available()`. -/
def PersonalRuntime.available (now : Instant) : List ModelCapability :=
  runtime.modelRegistry.capabilities.filter fun capability => !capability.isStale now

/-- The payload with the model that `auto` stands for. -/
def PersonalRuntime.resolveAuto (now : Instant) (payload : Json) : Except RequestStop Json :=
  match payload with
  | .obj fields =>
      if (Json.field fields "model").isLit "auto" then
        match runtime.available now with
        | [capability] => .ok (.obj (Entries.set fields (lit "model") (.str capability.modelId)))
        | _ => .error .modelUnavailable
      else .ok (.obj fields)
  | v => .ok v

/-- What stops a turn before the gate. -/
def stopOf : Stop → RequestStop
  | .blocked code message status => .blocked code message status
  | .raised _ => .raised

/-- Why a request is not sealed. -/
def sealStop : GatewayTransaction.SealError → RequestStop
  | .failed => .blocked "gateway_sealing_failed" "Responses request could not be sealed safely." 500
  | .recursionError => .raised

/-- The request that `transaction.invoke` hands to the provider boundary. -/
def sealedTurn (tx : GatewayTransaction) (payload : Json) :
    Except RequestStop SealedGatewayRequest := do
  let admission ← (tx.beginTurn setting.budget setting.store setting.storeNow setting.gateNow
    payload personalSubject).2.mapError stopOf
  let outcome ← (tx.gate.prepareForModel setting.gateNow setting.gateSignedAt
    personalSubject.tenantId admission.normalized.request).mapError fun _ => .raised
  match outcome.prepared, payload with
  | none, _ => .error .gateBlocked
  | some prepared, .obj fields =>
      (tx.sealRequest setting.verifiedAt setting.signedAt setting.entropy fields
        admission.normalized prepared).mapError sealStop
  | some _, _ => .error (sealStop .failed)

/-- `PersonalRuntime.invoke` up to the request that is posted. -/
def PersonalRuntime.request (credentials : PathContent) (payload : Json) :
    Except RequestStop ProviderRequest := do
  let payload ← runtime.resolveAuto setting.gateNow payload
  let sealed_ ← sealedTurn setting (runtime.transaction H setting) payload
  runtime.downstream.request H credentials runtime.signer setting.stack setting.guardedAt sealed_

end Invocation

end MediaBridge.Personal
