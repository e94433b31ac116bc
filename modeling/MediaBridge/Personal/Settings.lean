import MediaBridge.Core.Contracts
import MediaBridge.Core.Receipts
import MediaBridge.Foundation.UrlSplit
import MediaBridge.Gateway.LlmBackends

/-!
# Settings of the personal runtime

`_normalize_npm_config`, `_validated_generic_settings` and `_validated_settings` of
`media_bridge_personal/npm_runtime.py`: from a payload and the existing configuration to the
configuration that is written.

## Implementation notes

`int` and `str` of values that are neither integers nor strings are those of the interpreter's
`Platform`. Keys of a dictionary other than strings are never read, and are left out.
-/

namespace MediaBridge.Personal

open Foundation MediaBridge.Core Gateway

/-- Why settings are not accepted. -/
inductive SettingsError
  | invalid
  | endpoint
  | effort
  /-- An exception of the interpreter that is not caught. -/
  | raised
deriving DecidableEq

/-- The text of the `PersonalRuntimeConfigurationError`. -/
def SettingsError.message : SettingsError → Option String
  | .invalid => some "settings are invalid"
  | .endpoint => some "settings endpoint is invalid"
  | .effort => some "reasoning effort is unsupported"
  | .raised => none

/-- The interpreter that the runtime runs on. -/
structure Interpreter where
  platform : Platform
  unicode : UnicodeData
  casefold : Str → Str

/-- `_section`. -/
def configSection (config : Entries Str Json) (name : String) : Entries Str Json :=
  (Json.field config name).obj?.getD []

/-- `{**base, **more}`. -/
def updated (base more : Entries Str Json) : Entries Str Json :=
  more.foldl (fun d e => Entries.set d e.1 e.2) base

section Readers

variable (I : Interpreter)

/-- `str(fields.get(key, default))`. -/
def textField (fields : Entries Str Json) (key : String) (default : Str) : Str :=
  match Entries.get? fields (lit key) with
  | none => default
  | some v => Receipts.textOf I.platform v

/-- A pair in a sequence from which a dictionary is made. -/
def pairOf : Json → Option (Json × Json)
  | .arr [k, v] => some (k, v)
  | .str [c, d] => some (.str [c], .str [d])
  | .obj [(k, _), (l, _)] => some (.str k, .str l)
  | _ => none

/-- `d[k] = v`. -/
def addPair (d : Entries Str Json) : Option (Json × Json) → Except PayloadError (Entries Str Json)
  | none => .error .caught
  | some (.str k, v) => .ok (Entries.set d k v)
  | some (k, _) => if k.hashable then .ok d else .error .caught

/-- `dict(v)`. -/
def dictOf : Json → Except PayloadError (Entries Str Json)
  | .obj fields => .ok fields
  | .arr items => items.foldlM (fun d item => addPair d (pairOf item)) []
  | .str [] => .ok []
  | _ => .error .caught

/-- `parsed.hostname`; it is `None` where it is empty. -/
def hostname (parsed : SplitResult) : Str :=
  let (name, zone) := Str.partitionAt UrlSplit.percent parsed.hostText
  I.unicode.lower name ++ (zone.map fun text => UrlSplit.percent :: text).getD []

/-- `parsed.hostname in {"127.0.0.1", "localhost", "::1"}`. -/
def loopbackHost (parsed : SplitResult) : Bool :=
  ["127.0.0.1", "localhost", "::1"].any fun host => hostname I parsed = lit host

/-- `_validate_endpoint`. -/
def validateEndpoint (endpoint : Str) (loopbackAllowed : Bool) : Except SettingsError Unit :=
  match UrlSplit.urlsplit I.unicode endpoint with
  | none => .error .raised
  | some parsed =>
      if parsed.hostText = [] ∨ parsed.hasUserinfo ∨ parsed.query ≠ [] ∨ parsed.fragment ≠ [] ∨
          (parsed.scheme ≠ lit "https" ∧
            ¬ (loopbackAllowed ∧ parsed.scheme = lit "http" ∧ loopbackHost I parsed)) then
        .error .endpoint
      else .ok ()

/-- `urlsplit(endpoint).path.endswith(tail)`, of an endpoint that can be split. -/
def pathEndsWith (endpoint : Str) (tail : String) : Bool :=
  (UrlSplit.urlsplit I.unicode endpoint).any fun parsed => decide (lit tail <:+ parsed.path)

/-- `[a-z0-9][a-z0-9._-]{0,63}`. -/
def credentialReference : Str → Bool
  | [] => false
  | c :: rest => registryHeadChar c && rest.length ≤ 63 &&
      rest.all fun d => registryHeadChar d || d == cp 46 || d == cp 95 || d == cp 45

/-- The reasoning efforts of Media Bridge itself. -/
def isMediaBridgeEffort (effort : Str) : Bool :=
  ["provider_default", "low", "medium", "high"].any fun name => effort = lit name

/-- The effort that is sent is one that the model is verified for. -/
def effortAccepted (preset protocol model override default : Str) : Bool :=
  let effective := if override ≠ lit "provider_default" then override else default
  decide (effective = lit "provider_default") ||
    (LlmBackends.reasoningCapability I.casefold
      (if preset = lit "upstage-solar" then lit "upstage-solar" else []) protocol model).any
        fun capability => effective ∈ capability.efforts

end Readers

section Normalization

variable (I : Interpreter)

/-- `_normalize_npm_config`. -/
def normalizeNpmConfig (config : Entries Str Json) : Except PayloadError (Entries Str Json) :=
  match Receipts.integerOf I.platform ((Entries.get? config (lit "port")).getD (.int 8642)) with
  | .error e => .error e
  | .ok port =>
      let defaultEffort :=
        if (Json.field (configSection config "textLlm") "preset").isLit "custom" then
          lit "provider_default"
        else lit "medium"
      let host := textField I config "host" (lit "127.0.0.1")
      let legacyAgent := configSection config "opencodex"
      let legacyLlm := configSection config "solar"
      let legacyMedia := configSection config "ocr"
      let result := Entries.set config (lit "reasoningEffort")
        (.str (textField I config "reasoningEffort" defaultEffort))
      let result := Entries.set result (lit "codingAgent") (.obj (updated
        [(lit "preset", .str (lit "opencodex")),
          (lit "protocol", .str (lit "openai-responses")),
          (lit "baseUrl", (Entries.get? legacyAgent (lit "baseUrl")).getD
            (.str (lit "http://" ++ host ++ lit ":" ++ JsonText.intText port ++ lit "/v1")))]
        (configSection result "codingAgent")))
      let result := Entries.set result (lit "textLlm") (.obj (updated
        [(lit "preset", .str (lit "upstage-solar")),
          (lit "protocol", .str (lit "openai-chat-completions")),
          (lit "endpoint", (Entries.get? legacyLlm (lit "endpoint")).getD
            (.str (lit "https://api.upstage.ai/v1/chat/completions"))),
          (lit "model", (Entries.get? legacyLlm (lit "model")).getD (.str (lit "solar-pro4"))),
          (lit "credentialRef", .str (lit "text-llm")), (lit "credentialEnv", .str []),
          (lit "reasoningEffort", .str (lit "provider_default"))]
        (Entries.erase (configSection result "textLlm") (lit "credentialEnv"))))
      .ok (Entries.set result (lit "mediaProcessor") (.obj (updated
        [(lit "preset", .str (lit "upstage-document-parse")),
          (lit "protocol", .str (lit "upstage-document-parse")),
          (lit "endpoint", (Entries.get? legacyMedia (lit "endpoint")).getD
            (.str (lit "https://api.upstage.ai/v1/document-digitization"))),
          (lit "model", (Entries.get? legacyMedia (lit "model")).getD
            (.str (lit "document-parse"))),
          (lit "credentialRef", .str (lit "media-processor")), (lit "credentialEnv", .str [])]
        (Entries.erase (configSection result "mediaProcessor") (lit "credentialEnv")))))

end Normalization

section Profiles

/-- The agent that is connected. -/
structure AgentProfile where
  preset : Str
  protocol : Str
  baseUrl : Str

/-- A text model or a media processor. -/
structure ProviderProfile where
  preset : Str
  protocol : Str
  endpoint : Str
  model : Str
  credentialRef : Str

/-- The settings that are written. -/
structure SavedSettings where
  port : Int
  effort : Str
  agent : AgentProfile
  llm : ProviderProfile
  llmEffort : Str
  media : ProviderProfile
  maxBytes : Int
  ocrEnabled : Bool
  visionEnabled : Bool
  blockOnFailure : Bool

namespace SavedSettings

variable (settings : SavedSettings)

def codingAgentJson : Json :=
  .obj [(lit "preset", .str settings.agent.preset), (lit "protocol", .str settings.agent.protocol),
    (lit "baseUrl", .str settings.agent.baseUrl)]

def textLlmJson : Json :=
  .obj [(lit "preset", .str settings.llm.preset), (lit "protocol", .str settings.llm.protocol),
    (lit "endpoint", .str settings.llm.endpoint), (lit "model", .str settings.llm.model),
    (lit "reasoningEffort", .str settings.llmEffort),
    (lit "credentialRef", .str settings.llm.credentialRef), (lit "credentialEnv", .str [])]

def mediaProcessorJson : Json :=
  .obj [(lit "preset", .str settings.media.preset), (lit "protocol", .str settings.media.protocol),
    (lit "endpoint", .str settings.media.endpoint), (lit "model", .str settings.media.model),
    (lit "credentialRef", .str settings.media.credentialRef), (lit "credentialEnv", .str [])]

def conversionJson : Json :=
  .obj [(lit "maxBytes", .int settings.maxBytes), (lit "ocrEnabled", .bool settings.ocrEnabled),
    (lit "visionEnabled", .bool settings.visionEnabled)]

def failurePolicyJson : Json :=
  .obj [(lit "blockSolarOnPreparationFailure", .bool settings.blockOnFailure)]

def opencodexJson : Json := .obj [(lit "baseUrl", .str settings.agent.baseUrl)]

def solarJson : Json :=
  .obj [(lit "model", .str settings.llm.model), (lit "endpoint", .str settings.llm.endpoint),
    (lit "apiKeyEnv", .str [])]

def ocrJson : Json :=
  .obj [(lit "model", .str settings.media.model), (lit "endpoint", .str settings.media.endpoint),
    (lit "apiKeyEnv", .str [])]

/-- `result.update({"runtimeMode": ..., "host": ..., "port": ...})` and the effort. -/
def launch (config : Entries Str Json) : Entries Str Json :=
  updated config [(lit "runtimeMode", .str (lit "personal")), (lit "host", .str (lit "127.0.0.1")),
    (lit "port", .int settings.port), (lit "reasoningEffort", .str settings.effort)]

end SavedSettings

end Profiles

section Generic

variable (I : Interpreter)

/-- What the `try` block of `_validated_generic_settings` reads. -/
structure GenericPayload where
  port : Int
  codingAgent : Entries Str Json
  textLlm : Entries Str Json
  mediaProcessor : Entries Str Json
  conversion : Entries Str Json
  failurePolicy : Entries Str Json
  maxBytes : Int
  effort : Str

def readGeneric (payload current : Entries Str Json) : Except PayloadError GenericPayload := do
  let port ← Receipts.integerOf I.platform (← Receipts.payloadField payload "port")
  let codingAgent ← dictOf (← Receipts.payloadField payload "codingAgent")
  let textLlm ← dictOf (← Receipts.payloadField payload "textLlm")
  let mediaProcessor ← dictOf (← Receipts.payloadField payload "mediaProcessor")
  let conversion ← dictOf (← Receipts.payloadField payload "conversion")
  let failurePolicy ← dictOf (← Receipts.payloadField payload "failurePolicy")
  let maxBytes ← Receipts.integerOf I.platform (← Receipts.payloadField conversion "maxBytes")
  let normalized ← normalizeNpmConfig I current
  let currentEffort := textField I normalized "reasoningEffort" (lit "medium")
  return {
    port := port
    codingAgent := codingAgent
    textLlm := textLlm
    mediaProcessor := mediaProcessor
    conversion := conversion
    failurePolicy := failurePolicy
    maxBytes := maxBytes
    effort := textField I payload "reasoningEffort" currentEffort }

/-- `str(fields.get(key, "")).strip()`. -/
def strippedField (fields : Entries Str Json) (key : String) : Str :=
  (textField I fields key []).strip

/-- A profile as it is read. -/
def readProvider (fields : Entries Str Json) : ProviderProfile where
  preset := strippedField I fields "preset"
  protocol := strippedField I fields "protocol"
  endpoint := strippedField I fields "endpoint"
  model := strippedField I fields "model"
  credentialRef := strippedField I fields "credentialRef"

/-- The settings that a payload asks for. -/
def genericSettings (request : GenericPayload) : SavedSettings where
  port := request.port
  effort := request.effort
  agent := {
    preset := strippedField I request.codingAgent "preset"
    protocol := strippedField I request.codingAgent "protocol"
    baseUrl := strippedField I request.codingAgent "baseUrl" }
  llm := readProvider I request.textLlm
  llmEffort := textField I request.textLlm "reasoningEffort" (lit "provider_default")
  media := readProvider I request.mediaProcessor
  maxBytes := request.maxBytes
  ocrEnabled := (Json.field request.conversion "ocrEnabled").isTrue
  visionEnabled := (Json.field request.conversion "visionEnabled").isTrue
  blockOnFailure := (Json.field request.failurePolicy "blockSolarOnPreparationFailure").isTrue

/-- The ranges of the numbers, and the effort. -/
def rangesAccepted (settings : SavedSettings) : Bool :=
  decide (1 ≤ settings.port ∧ settings.port ≤ 65535 ∧ 1 ≤ settings.maxBytes) &&
    isMediaBridgeEffort settings.effort

/-- The presets, protocols, models and references, and the paths of the endpoints. -/
def profilesAccepted (settings : SavedSettings) : Bool :=
  (["opencodex", "eoul-gateway", "custom"].any fun name => settings.agent.preset = lit name) &&
    decide (settings.agent.protocol = lit "openai-responses") &&
    (["upstage-solar", "custom"].any fun name => settings.llm.preset = lit name) &&
    (["openai-chat-completions", "openai-responses"].any fun name =>
      settings.llm.protocol = lit name) &&
    !settings.llm.model.isEmpty && credentialReference settings.llm.credentialRef &&
    decide (settings.media.preset = lit "upstage-document-parse") &&
    decide (settings.media.protocol = lit "upstage-document-parse") &&
    decide (settings.media.model = lit "document-parse") &&
    credentialReference settings.media.credentialRef &&
    (!decide (settings.llm.protocol = lit "openai-chat-completions") ||
      pathEndsWith I settings.llm.endpoint "/v1/chat/completions") &&
    (!decide (settings.llm.protocol = lit "openai-responses") ||
      pathEndsWith I settings.llm.endpoint "/v1/responses") &&
    pathEndsWith I settings.media.endpoint "/v1/document-digitization"

/-- The checks of `_validated_generic_settings`, in their order. -/
def checkGeneric (settings : SavedSettings) : Except SettingsError Unit :=
  if ¬ rangesAccepted settings then .error .invalid
  else do
    validateEndpoint I settings.agent.baseUrl true
    validateEndpoint I settings.llm.endpoint true
    validateEndpoint I settings.media.endpoint true
    if ¬ profilesAccepted I settings then .error .invalid
    else if ¬ effortAccepted I settings.llm.preset settings.llm.protocol settings.llm.model
        settings.llmEffort settings.effort then .error .effort
    else .ok ()

/-- The configuration of accepted settings. -/
def genericConfig (normalized : Entries Str Json) (settings : SavedSettings) : Entries Str Json :=
  updated (settings.launch normalized)
    [(lit "codingAgent", settings.codingAgentJson), (lit "textLlm", settings.textLlmJson),
      (lit "mediaProcessor", settings.mediaProcessorJson),
      (lit "conversion", settings.conversionJson),
      (lit "failurePolicy", settings.failurePolicyJson),
      (lit "opencodex", settings.opencodexJson), (lit "solar", settings.solarJson),
      (lit "ocr", settings.ocrJson)]

/-- What a caught error becomes. -/
def caughtError : PayloadError → SettingsError
  | .caught => .invalid
  | .overflow => .raised

/-- `_validated_generic_settings`. -/
def validatedGenericSettings (payload : Json) (current : Entries Str Json) :
    Except SettingsError (Entries Str Json) :=
  match payload with
  | .obj fields => do
      let request ← (readGeneric I fields current).mapError caughtError
      checkGeneric I (genericSettings I request)
      let normalized ← (normalizeNpmConfig I current).mapError caughtError
      return genericConfig normalized (genericSettings I request)
  | _ => .error .invalid

end Generic

section Form

variable (I : Interpreter)

/-- `payload[key].strip()`. -/
def formText (payload : Entries Str Str) (key : String) : Except PayloadError Str :=
  match Entries.get? payload (lit key) with
  | none => .error .caught
  | some text => .ok text.strip

/-- `int(payload[key])`. -/
def formInteger (payload : Entries Str Str) (key : String) : Except PayloadError Int :=
  match Entries.get? payload (lit key) with
  | none => .error .caught
  | some text => Receipts.integerOf I.platform (.str text)

/-- `payload.get(key) == "true"`. -/
def formChecked (payload : Entries Str Str) (key : String) : Bool :=
  decide (Entries.get? payload (lit key) = some (lit "true"))

/-- The settings that a form asks for. -/
def readForm (payload : Entries Str Str) : Except PayloadError SavedSettings := do
  let port ← formInteger I payload "port"
  let maxBytes ← formInteger I payload "max_bytes"
  let baseUrl ← formText payload "opencodex_base_url"
  let model ← formText payload "solar_model"
  let solarEndpoint ← formText payload "solar_endpoint"
  let ocrEndpoint ← formText payload "ocr_endpoint"
  return {
    port := port
    effort := ((Entries.get? payload (lit "media_bridge_reasoning_effort")).getD
      (lit "medium")).strip
    agent := {
      preset := lit "opencodex"
      protocol := lit "openai-responses"
      baseUrl := baseUrl }
    llm := {
      preset := lit "upstage-solar"
      protocol := lit "openai-chat-completions"
      endpoint := solarEndpoint
      model := model
      credentialRef := lit "text-llm" }
    llmEffort := ((Entries.get? payload (lit "reasoning_effort")).getD
      (lit "provider_default")).strip
    media := {
      preset := lit "upstage-document-parse"
      protocol := lit "upstage-document-parse"
      endpoint := ocrEndpoint
      model := lit "document-parse"
      credentialRef := lit "media-processor" }
    maxBytes := maxBytes
    ocrEnabled := formChecked payload "ocr_enabled"
    visionEnabled := formChecked payload "vision_enabled"
    blockOnFailure := formChecked payload "block_solar_on_failure" }

/-- The checks of `_validated_settings`, in their order. -/
def checkForm (settings : SavedSettings) : Except SettingsError Unit :=
  if ¬ rangesAccepted settings then .error .invalid
  else do
    validateEndpoint I settings.agent.baseUrl true
    validateEndpoint I settings.llm.endpoint false
    validateEndpoint I settings.media.endpoint false
    if settings.llm.model = [] then .error .invalid
    else if ¬ effortAccepted I settings.llm.preset settings.llm.protocol settings.llm.model
        settings.llmEffort settings.effort then .error .effort
    else .ok ()

/-- The configuration before it is normalized. -/
def legacyConfig (current : Entries Str Json) (settings : SavedSettings) : Entries Str Json :=
  updated (settings.launch current)
    [(lit "opencodex", settings.opencodexJson), (lit "solar", settings.solarJson),
      (lit "ocr", settings.ocrJson), (lit "conversion", settings.conversionJson),
      (lit "failurePolicy", settings.failurePolicyJson)]

/-- `_validated_settings`. -/
def validatedSettings (payload : Entries Str Str) (current : Entries Str Json) :
    Except SettingsError (Entries Str Json) := do
  let settings ← (readForm I payload).mapError caughtError
  checkForm I settings
  let normalized ← (normalizeNpmConfig I (legacyConfig current settings)).mapError fun _ => .raised
  return updated normalized
    [(lit "codingAgent", settings.codingAgentJson), (lit "textLlm", settings.textLlmJson),
      (lit "mediaProcessor", settings.mediaProcessorJson)]

end Form

end MediaBridge.Personal
