import MediaBridge.Core.Receipts
import MediaBridge.Foundation.JsonEqual
import MediaBridge.Foundation.UrlSplit

/-!
# Provider backends

`build_llm_backend` of `media_bridge/llm_backends.py`, with the table of
`media_bridge/reasoning.py` that it consults: which provider records can serve text.

## Implementation notes

Of the backend only what it is built from is kept; its requests are not modelled. The
endpoint is the split URL with its final path.
-/

namespace MediaBridge.Gateway

open Foundation MediaBridge.Core

/-- A value of a provider's own reasoning parameter. -/
inductive WireValue
  | text (value : Str)
  | number (value : Int)
deriving DecidableEq

structure ReasoningCapability where
  wireProtocol : Str
  wireValues : List (Str × WireValue)
deriving DecidableEq

namespace ReasoningCapability

def efforts (capability : ReasoningCapability) : List Str := capability.wireValues.map Prod.fst

/-- The efforts that are sent under their own names. -/
def named (wireProtocol : String) (efforts : List String) : ReasoningCapability where
  wireProtocol := lit wireProtocol
  wireValues := efforts.map fun effort => (lit effort, .text (lit effort))

/-- The efforts that are sent as a budget of tokens. -/
def budgets (efforts : List (String × Int)) : ReasoningCapability where
  wireProtocol := lit "gemini-budget"
  wireValues := efforts.map fun e => (lit e.1, .number e.2)

end ReasoningCapability

namespace LlmBackends

/-- The models of OpenAI with an effort, and their efforts. -/
def openaiEfforts : List (String × List String) :=
  [("gpt-5.1", ["none", "low", "medium", "high"]), ("gpt-5-pro", ["high"]),
    ("o3", ["low", "medium", "high"]), ("o4-mini", ["low", "medium", "high"]),
    ("gpt-5.1-codex-max", ["none", "low", "medium", "high", "xhigh"])]

def solarEfforts : List (String × List String) :=
  [("solar-pro3", ["low", "medium", "high"]), ("solar-pro4", ["low", "medium", "high"])]

def gemini25Budgets : List (String × Int) :=
  [("low", 1024), ("medium", 8192), ("high", 24576)]

def gemini25Models : List (String × List (String × Int)) :=
  [("gemini-2.5-pro", gemini25Budgets),
    ("gemini-2.5-flash", ("none", 0) :: gemini25Budgets),
    ("gemini-2.5-flash-preview", ("none", 0) :: gemini25Budgets),
    ("gemini-2.5-flash-lite", ("none", 0) :: gemini25Budgets),
    ("gemini-2.5-flash-lite-preview", ("none", 0) :: gemini25Budgets)]

def gemini3Levels : List (String × List String) :=
  [("gemini-3.8-flash", ["low", "medium", "high"]),
    ("gemini-3.7-flash", ["low", "medium", "high"]),
    ("gemini-3.6-flash", ["minimal", "low", "medium", "high"]),
    ("gemini-3.5-flash", ["minimal", "low", "medium", "high"]),
    ("gemini-3.5-flash-lite", ["minimal", "low", "medium", "high"]),
    ("gemini-3.1-flash-lite", ["minimal", "low", "medium", "high"]),
    ("gemini-3.1-pro-preview", ["low", "medium", "high"]),
    ("gemini-3-flash-preview", ["minimal", "low", "medium", "high"])]

def anthropicEfforts : List (String × List String) :=
  ["claude-opus-4-6", "claude-opus-4-7", "claude-opus-4-8", "claude-sonnet-4-6",
    "claude-opus-5", "claude-sonnet-5", "claude-fable-5"].map
      fun model => (model, ["low", "medium", "high"])

/-- The row of a model. -/
def rowOf {α : Type} (table : List (String × α)) (model : Str) : Option α :=
  (table.find? fun row => decide (lit row.1 = model)).map Prod.snd

/-- `reasoning_capability`; `casefold` is the method of strings. -/
def reasoningCapability (casefold : Str → Str) (catalogId protocol modelId : Str) :
    Option ReasoningCapability :=
  if catalogId.isEmpty || protocol.isEmpty || modelId.isEmpty then none
  else
    let model := casefold (Str.strip modelId)
    let provider := casefold (Str.strip catalogId)
    if provider = lit "openai" ∧ protocol = lit "openai-responses" then
      (rowOf openaiEfforts model).map (.named "openai-responses")
    else if provider = lit "openai" ∧ protocol = lit "openai-chat-completions" then
      (rowOf openaiEfforts model).map (.named "openai-chat")
    else if provider = lit "upstage-solar" ∧ protocol = lit "openai-chat-completions" then
      (rowOf solarEfforts model).map (.named "openai-chat")
    else if provider = lit "gemini" ∧ protocol = lit "gemini-generate-content" then
      match rowOf gemini25Models model with
      | some efforts => some (.budgets efforts)
      | none => (rowOf gemini3Levels model).map (.named "gemini-level")
    else if provider = lit "anthropic" ∧ protocol = lit "anthropic-messages" then
      (rowOf anthropicEfforts model).map (.named "anthropic-adaptive")
    else none

/-- The pairs of catalog entry and protocol for which there is an adapter. -/
def allowedPairs : List (String × String) :=
  [("openai", "openai-chat-completions"), ("openai", "openai-responses"),
    ("upstage-solar", "openai-chat-completions"), ("gemini", "gemini-generate-content"),
    ("anthropic", "anthropic-messages")]

def allowedPair (catalogId protocol : Str) : Bool :=
  allowedPairs.any fun pair => decide (lit pair.1 = catalogId ∧ lit pair.2 = protocol)

def effortNames : List String :=
  ["provider_default", "none", "minimal", "low", "medium", "high", "xhigh"]

/-- `s.endswith(suffix)`. -/
def endsWith (s suffix : Str) : Bool := decide (suffix <:+ s)

/-- The path of the API behind a protocol. -/
def pathSuffix (protocol : Str) : Option Str :=
  if protocol = lit "openai-chat-completions" then some (lit "/v1/chat/completions")
  else if protocol = lit "openai-responses" then some (lit "/v1/responses")
  else if protocol = lit "anthropic-messages" then some (lit "/v1/messages")
  else none

/-- The characters that `quote(model, safe="._-")` keeps. -/
def quoteKeeps (b : Byte) : Bool :=
  let c := cp b.val
  c.isAsciiAlnum || c == cp 95 || c == cp 46 || c == cp 45 || c == cp 126

/-- An upper-case hexadecimal digit. -/
def upperHex (d : Nat) : CodePoint := if d < 10 then cp (48 + d) else cp (55 + d)

/-- `quote(model, safe="._-")`; `none` is a `UnicodeEncodeError`. -/
def quote (model : Str) : Option Str := do
  let data ← Utf8.encode model
  return data.flatMap fun b =>
    if quoteKeeps b then [cp b.val]
    else [cp 37, upperHex (b.val / 16), upperHex (b.val % 16)]

/-- The final path of an endpoint; `none` is a `ValueError`. -/
def finalPath (protocol model path : Str) : Option Str :=
  if protocol = lit "gemini-generate-content" then
    if endsWith path (lit "/v1beta/models") then
      (quote model).map fun name => path ++ cp 47 :: name ++ lit ":generateContent"
    else if endsWith path (lit ":generateContent") then some path
    else none
  else do
    let suffix ← pathSuffix protocol
    if endsWith path suffix then some path
    else if endsWith path (lit "/v1") then some (path ++ suffix.drop 3)
    else if path.isEmpty then some suffix
    else none

/-- `_endpoint_for`; `none` is a `ValueError`. -/
def endpointFor (U : UnicodeData) (protocol endpoint model : Str) : Option SplitResult := do
  let parsed ← UrlSplit.urlsplit U endpoint
  if parsed.scheme ≠ lit "https" ∨ parsed.hostText = [] ∨ parsed.hasUserinfo = true ∨
      parsed.query ≠ [] ∨ parsed.fragment ≠ [] then none
  else do
    let path ← finalPath protocol model (parsed.path.rdropWhile (· = cp 47))
    return { parsed with path := path }

end LlmBackends

/-- `_ProviderTextBackend`, without its credential loader and client. -/
structure ProviderTextBackend where
  endpoint : SplitResult
  catalogId : Str
  protocol : Str
  model : Str
  effort : Str
  capability : Option ReasoningCapability

namespace LlmBackends

/-- `isinstance(value, str) and value.strip()`. -/
def filledText (provider : Entries Str Json) (key : String) : Option Str := do
  let s ← (Json.field provider key).str?
  if (Str.strip s).isEmpty then none else some s

/-- `str(provider.get("reasoning_effort") or "provider_default")`. -/
def effortText (P : Platform) (provider : Entries Str Json) : Str :=
  let v := Json.field provider "reasoning_effort"
  if v.truthy then Receipts.textOf P v else lit "provider_default"

/-- `build_llm_backend`; `none` is a `ValueError`. -/
def buildLlmBackend (U : UnicodeData) (P : Platform) (casefold : Str → Str)
    (provider : Entries Str Json) : Option ProviderTextBackend := do
  let catalogId ← filledText provider "catalog_id"
  let protocol ← filledText provider "protocol"
  let model ← filledText provider "model_id"
  let endpoint ← filledText provider "endpoint"
  if !allowedPair catalogId protocol then none
  else
    let effort := effortText P provider
    if !effortNames.any fun name => decide (lit name = effort) then none
    else
      let capability := reasoningCapability casefold catalogId protocol model
      if effort ≠ lit "provider_default" ∧
          ¬ ∃ c ∈ capability, effort ∈ c.efforts then none
      else do
        let endpoint ← endpointFor U protocol endpoint model
        return ⟨endpoint, catalogId, protocol, model, effort, capability⟩

end LlmBackends

end MediaBridge.Gateway
