import MediaBridge.Core.OpenaiChat
import MediaBridge.Gateway.AutoDispatch
import MediaBridge.Gateway.Downstream

/-!
# What a provider is sent

`reasoning_payload_fields` of `media_bridge/reasoning.py`, the payload that
`_ProviderTextBackend._analyze` of `media_bridge/llm_backends.py` posts, and the way of a sealed
request to it through `ProviderResponsesDownstream.invoke` of
`media_bridge_gateway/downstream.py`.

## Implementation notes

The answer of the provider is not modelled: a request is sent, or fails before. The seal has
been checked by then, and the endpoint and the headers do not depend on the request.
-/

namespace MediaBridge.Gateway

open Foundation MediaBridge.Core ProviderRouting LlmBackends

/-- The value in a payload. -/
def WireValue.json : WireValue → Json
  | .text value => .str value
  | .number value => .int value

namespace ProviderPayload

/-- The fields of a wire protocol; `none` is an `UnsupportedReasoningEffort`. -/
def wireFields (wireProtocol : Str) (value : WireValue) : Option (Entries Str Json) :=
  let thinking (name : String) : Entries Str Json :=
    [(lit "generationConfig", .obj [(lit "thinkingConfig", .obj [(lit name, value.json)])])]
  if wireProtocol = lit "gemini-level" then some (thinking "thinkingLevel")
  else if wireProtocol = lit "gemini-budget" then some (thinking "thinkingBudget")
  else if wireProtocol = lit "openai-responses" then
    some [(lit "reasoning", .obj [(lit "effort", value.json)])]
  else if wireProtocol = lit "openai-chat" then some [(lit "reasoning_effort", value.json)]
  else if wireProtocol = lit "anthropic-adaptive" then
    some [(lit "thinking", .obj [(lit "type", .str (lit "adaptive"))]),
      (lit "output_config", .obj [(lit "effort", value.json)])]
  else none

/-- `reasoning_payload_fields`; `none` is an `UnsupportedReasoningEffort`. -/
def reasoningPayloadFields (capability : Option ReasoningCapability) (effort : Str) :
    Option (Entries Str Json) :=
  match capability with
  | none => some []
  | some capability =>
      if effort = lit "provider_default" then some []
      else do
        let value ← Entries.get? capability.wireValues effort
        wireFields capability.wireProtocol value

/-- The `specified` property of the options. -/
def specified (options : TextGenerationOptions) : Bool :=
  options.instructions.isSome || options.outputFormat.isSome || options.maxOutputTokens.isSome

/-- An optional entry. -/
def entry (key : String) (value : Option Json) : Entries Str Json :=
  (value.map (lit key, ·)).toList

/-- The `response_format` of a chat payload. -/
def responseFormat (format : Json) : Json :=
  let fields := format.obj?.getD []
  if (Json.field fields "type").isLit "json_schema" then
    .obj [(lit "type", .str (lit "json_schema")),
      (lit "json_schema", .obj (fields.filter fun e => e.1 ≠ lit "type"))]
  else .obj [(lit "type", Json.field fields "type")]

/-- A message of a chat payload. -/
def message (role : String) (content : Str) : Json :=
  .obj [(lit "role", .str (lit role)), (lit "content", .str content)]

/-- The payload of `_analyze` before the reasoning fields. -/
def basePayload (backend : ProviderTextBackend) (options : TextGenerationOptions) (prompt : Str) :
    Entries Str Json :=
  if backend.protocol = lit "openai-chat-completions" then
    [(lit "model", .str backend.model),
      (lit "messages", .arr [message "system" (options.instructions.getD
        (lit "Analyze only the supplied text context.")), message "user" prompt])] ++
      entry (if backend.catalogId = lit "openai" then "max_completion_tokens" else "max_tokens")
        (options.maxOutputTokens.map .int) ++
      entry "response_format" (options.outputFormat.map responseFormat)
  else if backend.protocol = lit "openai-responses" then
    [(lit "model", .str backend.model), (lit "input", .str prompt)] ++
      entry "instructions" (options.instructions.map .str) ++
      entry "max_output_tokens" (options.maxOutputTokens.map .int) ++
      entry "text" (options.outputFormat.map fun format => .obj [(lit "format", format)])
  else if backend.protocol = lit "gemini-generate-content" then
    [(lit "contents", .arr [.obj [(lit "role", .str (lit "user")),
      (lit "parts", .arr [.obj [(lit "text", .str prompt)]])]])]
  else
    [(lit "model", .str backend.model), (lit "max_tokens", .int 4096),
      (lit "messages", .arr [message "user" prompt])]

/-- `payload.update(more)`. -/
def update (payload more : Entries Str Json) : Entries Str Json :=
  more.foldl (fun d e => Entries.set d e.1 e.2) payload

/-- How the work before the call of the provider fails. -/
inductive DispatchError
  | downstream (code safeMessage : String) (httpStatus : Nat)
  | routing (e : RoutingError)
  | typeError
deriving DecidableEq

/-- The status of an `AnalysisResult` that is a failure, as `invoke` reports it. -/
def rejected (code : String) : DispatchError :=
  .downstream code "Configured Provider rejected the downstream request." 502

/-- The payload that `_analyze` posts; `secret` is what the credential loader gives, with `none` for
its errors. -/
def analyze (secret : Option Str) (backend : ProviderTextBackend)
    (options : TextGenerationOptions) (prompt : Str) :
    Except DispatchError (Entries Str Json) :=
  if (secret.getD []).strip.isEmpty then .error (rejected "downstream_configuration")
  else
    match reasoningPayloadFields backend.capability backend.effort with
    | none => .error (rejected "downstream_configuration")
    | some fields =>
        .ok (update (basePayload backend options (lit "\n\n" ++ prompt).strip) fields)

/-- `analyze_with_options`, or `analyze` when no option is specified. -/
def analyzeSpecified (secret : Option Str) (backend : ProviderTextBackend)
    (options : TextGenerationOptions) (prompt : Str) :
    Except DispatchError (Entries Str Json) :=
  if specified options = true ∧ backend.protocol ≠ lit "openai-chat-completions" ∧
      backend.protocol ≠ lit "openai-responses" then
    .error (rejected "downstream_unsupported_options")
  else analyze secret backend options prompt

/-- The default of the snapshot's policy. -/
def policyDefault (body : Entries Str Json) : Json :=
  match Json.field body "defaults" with
  | .obj defaults => Json.field defaults "reasoning_effort"
  | _ => .null

/-- The effort that is put into the record of the provider. -/
def requestedEffort (request default : Json) : Json :=
  let requested := if request.isNull then default else request
  if requested.isLit "provider_default" then .null else requested

/-- The efforts that a request or a policy can ask for. -/
def requestable (effort : Json) : Bool :=
  effort.isLit "low" || effort.isLit "medium" || effort.isLit "high"

/-- The record of the provider with the requested effort. -/
def effortProvider (requested : Json) (provider : Entries Str Json) :
    Except DispatchError (Entries Str Json) :=
  if requested.isNull then .ok provider
  else if !requested.hashable then .error .typeError
  else if requestable requested then
    .ok (Entries.set provider (lit "reasoning_effort") requested)
  else
    .error (.downstream "reasoning_effort_invalid" "The requested reasoning effort is invalid." 400)

/-- The interpreter's functions and the credential of the provider. -/
structure Context where
  unicode : UnicodeData
  platform : Platform
  casefold : Str → Str
  secret : Option Str

/-- The call of the backend that the factory builds. -/
def serve (C : Context) (provider : Entries Str Json) (options : TextGenerationOptions)
    (prompt : Str) : Except DispatchError (Entries Str Json) :=
  match providerBackend C.unicode C.platform C.casefold provider with
  | none =>
      .error (.downstream "model_provider_unavailable"
        "The configured Provider cannot serve this model." 502)
  | some backend =>
      if prompt.isEmpty then
        .error (.downstream "downstream_payload_invalid"
          "Downstream request did not contain text input." 400)
      else analyzeSpecified C.secret backend options prompt

/-- The work of `invoke` from the chosen provider to the call. -/
def dispatch (C : Context) (request default : Json) (provider : Entries Str Json)
    (options : TextGenerationOptions) (prompt : Str) :
    Except DispatchError (Entries Str Json) := do
  let provider ← effortProvider (requestedEffort request default) provider
  serve C provider options prompt

/-- The work of `invoke` up to the call of the provider. -/
def invoke (C : Context) (body : Entries Str Json) (targetId : Str) (payload : Entries Str Json) :
    Except DispatchError (Entries Str Json) :=
  match OpenaiChat.responsesGenerationOptions C.platform payload with
  | .error _ =>
      .error (.downstream "downstream_payload_invalid"
        "Text generation options are invalid or unsupported." 400)
  | .ok options =>
      match providerForTarget body targetId with
      | .error e => .error (.routing e)
      | .ok provider =>
          dispatch C (Json.field payload "reasoning_effort") (policyDefault body) provider options
            (textFromResponsesPayload payload)

end ProviderPayload

end MediaBridge.Gateway
