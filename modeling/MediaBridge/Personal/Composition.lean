import MediaBridge.Core.Capabilities
import MediaBridge.Personal.CredentialStore

/-!
# What the personal runtime is made of

`build_personal_runtime_from_config` and `build_personal_runtime_from_environment` of
`media_bridge_personal/npm_runtime.py`: the two ways to a runtime with one text model and one media
processor.

## Implementation notes

Of the runtime what it is built from is kept. Clients and the gate have no settings of their own.
The environment of a process and what its operating system answers are fields of `Surroundings`.
-/

namespace MediaBridge.Personal

open Foundation MediaBridge.Core Gateway

section Parts

/-- `UpstageDocumentParseBackend`; the secret is looked up under the reference. -/
structure DocumentParseBackend where
  endpoint : Str
  apiKeyEnv : Str
  credentialRef : Str
deriving DecidableEq

/-- `SolarResponsesDownstream`. -/
structure SolarResponsesDownstream where
  endpoint : Str
  model : Str
  apiKeyEnv : Str
  credentialRef : Str
  protocol : Str
  effort : Str
  providerName : String
  errorPrefix : String
deriving DecidableEq

/-- `PersonalRuntime`. -/
structure PersonalRuntime where
  model : Str
  assetRoot : Str
  signer : GateReceiptSigner
  media : DocumentParseBackend
  downstream : SolarResponsesDownstream

/-- `datetime(2099, 1, 1, tzinfo=UTC)`. -/
def modelExpiry : Instant := 4070908800000000

/-- The only model that the registry knows. -/
def PersonalRuntime.capability (runtime : PersonalRuntime) : ModelCapability where
  modelId := runtime.model
  inputModalities := {lit "text"}
  expiresAt := some modelExpiry

/-- `model_registry`. -/
def PersonalRuntime.modelRegistry (runtime : PersonalRuntime) : CapabilityRegistry where
  capabilities := [runtime.capability]
  version := lit "npm-personal-1"
  modelIds_nodup := List.nodup_singleton _

end Parts

section Checks

variable (I : Interpreter)

/-- `_TEXT_PROTOCOLS`. -/
def isTextProtocol (protocol : Str) : Bool :=
  ["openai-chat-completions", "openai-responses"].any fun name => protocol = lit name

/-- What the runtime accepts of a split endpoint, but for its path. -/
def endpointAccepted (parsed : SplitResult) : Bool :=
  decide (parsed.scheme = lit "https" ∨ (parsed.scheme = lit "http" ∧ loopbackHost I parsed)) &&
    !parsed.hostText.isEmpty && !parsed.hasUserinfo && parsed.query.isEmpty &&
    parsed.fragment.isEmpty

/-- The constructor of `UpstageDocumentParseBackend`. -/
def documentParseBackend (endpoint apiKeyEnv credentialRef : Str) :
    Except RuntimeError DocumentParseBackend :=
  match UrlSplit.urlsplit I.unicode endpoint with
  | none => .error .raised
  | some parsed =>
      if endpointAccepted I parsed && decide (parsed.path = lit "/v1/document-digitization") then
        .ok ⟨endpoint, apiKeyEnv, credentialRef⟩
      else .error (.value "Document Parse endpoint is invalid")

/-- The path that `_validate_endpoint` of `solar_responses.py` expects. -/
def expectedPath (protocol : Str) : String :=
  if protocol = lit "openai-chat-completions" then "/v1/chat/completions" else "/v1/responses"

/-- `_validate_endpoint` of `solar_responses.py`. -/
def validateTextEndpoint (endpoint protocol : Str) : Except RuntimeError Unit :=
  match UrlSplit.urlsplit I.unicode endpoint with
  | none => .error .raised
  | some parsed =>
      if isTextProtocol protocol && endpointAccepted I parsed &&
          decide (lit (expectedPath protocol) <:+ parsed.path) then
        .ok ()
      else .error (.value "text LLM endpoint is not valid for the selected protocol")

/-- The effort is one that the model is verified for. -/
def effortSupported (protocol model effort : Str) : Bool :=
  decide (effort = lit "provider_default") ||
    (LlmBackends.reasoningCapability I.casefold (lit "upstage-solar") protocol model).any
      fun capability => effort ∈ capability.efforts

/-- The constructor of `SolarResponsesDownstream`. -/
def solarResponsesDownstream (downstream : SolarResponsesDownstream) :
    Except RuntimeError SolarResponsesDownstream := do
  validateTextEndpoint I downstream.endpoint downstream.protocol
  if ¬ effortSupported I downstream.protocol downstream.model downstream.effort then
    .error (.value "Solar reasoning effort is unsupported for this model and protocol")
  else if downstream.model.strip = [] then
    .error (.value "Solar personal downstream configuration is invalid")
  else .ok downstream

end Checks

section Environment

/-- What a file with a secret gives. -/
inductive SecretFile
  | invalid
  | unavailable
  | undecodable
  | text (content : Str)

/-- What a process finds around it. -/
structure Surroundings where
  environ : Entries Str Str
  secretFile : Str → SecretFile
  /-- The directory is there, or can be made. -/
  makesDirectory : Str → Bool

variable (S : Surroundings)

/-- `os.environ.get(name)`. -/
def Surroundings.environment? (name : String) : Option Str := Entries.get? S.environ (lit name)

/-- `_required`. -/
def required (name : String) : Except RuntimeError Str :=
  match ((S.environment? name).getD []).strip with
  | [] => .error (.configuration ("required environment setting " ++ name ++ " is missing"))
  | c :: rest => .ok (c :: rest)

/-- What `_receipt_secret` encodes. -/
def secretText : Except RuntimeError Str :=
  match (S.environment? "MEDIA_BRIDGE_RECEIPT_SECRET").getD [],
      (S.environment? "MEDIA_BRIDGE_RECEIPT_SECRET_FILE").getD [] with
  | value, [] => .ok value
  | [], c :: path =>
      match S.secretFile (c :: path) with
      | .invalid => .error (.configuration "receipt secret file is invalid")
      | .unavailable => .error (.configuration "receipt secret file is unavailable")
      | .undecodable => .error .raised
      | .text content => .ok content.strip
  | _ :: _, _ :: _ => .error (.configuration "receipt secret sources conflict")

/-- `_receipt_secret`. -/
def receiptSecret : Except RuntimeError Bytes := do
  let value ← secretText S
  match Utf8.encode value with
  | none => .error .raised
  | some encoded =>
      if encoded.length < 32 then
        .error (.configuration "receipt secret is missing or too short")
      else .ok encoded

end Environment

section Builders

variable (H : RuntimeHost) (S : Surroundings)

/-- `build_personal_runtime`. -/
def buildPersonalRuntime (model assetRoot : Str) (secret : Bytes) (media : DocumentParseBackend)
    (downstream : Except RuntimeError SolarResponsesDownstream) :
    Except RuntimeError PersonalRuntime :=
  if model.strip = [] then .error (.value "personal model is required")
  else if h : 32 ≤ secret.length then
    if S.makesDirectory assetRoot then do
      let downstream ← downstream
      return ⟨model, assetRoot, ⟨secret, h⟩, media, downstream⟩
    else .error .raised
  else .error (.value "receipt secret must contain at least 32 bytes")

/-- `_effective_reasoning_effort`. -/
def effectiveReasoningEffort (config : Entries Str Json) : Except PayloadError Str := do
  let normalized ← normalizeNpmConfig H.interpreter config
  let override := textField H.interpreter (configSection normalized "textLlm") "reasoningEffort"
    (lit "provider_default")
  return if override ≠ lit "provider_default" then override
    else textField H.interpreter normalized "reasoningEffort" []

/-- `build_personal_runtime_from_config`, after the file is read and normalized. -/
def buildFromNormalized (config : Entries Str Json) : Except RuntimeError PersonalRuntime :=
  let text := textField H.interpreter (configSection config "textLlm")
  let media := textField H.interpreter (configSection config "mediaProcessor")
  let model := (text "model" []).strip
  let protocol := (text "protocol" []).strip
  let isSolar := (Json.field (configSection config "textLlm") "preset").isLit "upstage-solar"
  if ¬ (isTextProtocol protocol ∧ (media "protocol" []).strip = lit "upstage-document-parse") then
    .error (.configuration "provider protocol is unsupported")
  else do
    let backend ← documentParseBackend H.interpreter (media "endpoint" []) []
      (media "credentialRef" [])
    let assetRoot ← required S "MEDIA_BRIDGE_ASSET_ROOT"
    let secret ← receiptSecret S
    buildPersonalRuntime S model assetRoot secret backend do
      let effort ← (effectiveReasoningEffort H config).mapError fun _ => .raised
      solarResponsesDownstream H.interpreter {
        endpoint := text "endpoint" []
        model := model
        apiKeyEnv := []
        credentialRef := text "credentialRef" []
        protocol := protocol
        effort := effort
        providerName := if isSolar then "Solar" else "Text LLM"
        errorPrefix := if isSolar then "solar" else "text_llm" }

/-- `build_personal_runtime_from_config`. -/
def buildFromConfig (path : PathContent) : Except RuntimeError PersonalRuntime := do
  let loaded ← loadNpmConfig H path
  let config ← (normalizeNpmConfig H.interpreter loaded).mapError fun _ => .raised
  buildFromNormalized H S config

/-- `os.environ.get(name, default).strip()`. -/
def variableOr (name : String) (default : Str) : Str := ((S.environment? name).getD default).strip

/-- `build_personal_runtime_from_environment`. -/
def buildFromEnvironment : Except RuntimeError PersonalRuntime :=
  if H.interpreter.unicode.lower
      (variableOr S "MEDIA_BRIDGE_RUNTIME_MODE" (lit "personal")) ≠ lit "personal" then
    .error (.configuration "npm runtime mode must be personal")
  else do
    let model ← required S "MEDIA_BRIDGE_SOLAR_MODEL"
    let apiKeyEnv := variableOr S "MEDIA_BRIDGE_SOLAR_CREDENTIAL_ENV" (lit "SOLAR_API_KEY")
    let mediaKeyEnv := variableOr S "MEDIA_BRIDGE_OCR_CREDENTIAL_ENV" apiKeyEnv
    let protocol := variableOr S "MEDIA_BRIDGE_TEXT_LLM_PROTOCOL" (lit "openai-chat-completions")
    let reference := variableOr S "MEDIA_BRIDGE_TEXT_LLM_CREDENTIAL_REF" (lit "text-llm")
    let mediaProtocol := variableOr S "MEDIA_BRIDGE_MEDIA_PROCESSOR_PROTOCOL"
      (lit "upstage-document-parse")
    let mediaReference := variableOr S "MEDIA_BRIDGE_MEDIA_PROCESSOR_CREDENTIAL_REF"
      (lit "media-processor")
    if ¬ (envName apiKeyEnv ∧ envName mediaKeyEnv) then
      .error (.configuration "credential environment name is invalid")
    else if ¬ (isTextProtocol protocol ∧ mediaProtocol = lit "upstage-document-parse" ∧
        credentialReference reference ∧ credentialReference mediaReference) then
      .error (.configuration "provider protocol or credential reference is invalid")
    else do
      let mediaEndpoint ← required S "MEDIA_BRIDGE_OCR_ENDPOINT"
      let backend ← documentParseBackend H.interpreter mediaEndpoint mediaKeyEnv mediaReference
      let assetRoot ← required S "MEDIA_BRIDGE_ASSET_ROOT"
      let secret ← receiptSecret S
      buildPersonalRuntime S model assetRoot secret backend do
        let endpoint ← required S "MEDIA_BRIDGE_SOLAR_ENDPOINT"
        solarResponsesDownstream H.interpreter {
          endpoint := endpoint
          model := model
          apiKeyEnv := apiKeyEnv
          credentialRef := reference
          protocol := protocol
          effort := (S.environment? "MEDIA_BRIDGE_REASONING_EFFORT").getD (lit "provider_default")
          providerName := "Text LLM"
          errorPrefix := "text_llm" }

end Builders

end MediaBridge.Personal
