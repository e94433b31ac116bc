import MediaBridge.Foundation.Text

/-!
# Provider catalog

`media_bridge_control/provider_catalog.py`: the entries that a provider can be made from, with the
fields that a provider takes over.
-/

namespace MediaBridge.Control

open Foundation

/-- `Literal["ocr", "vision", "analysis", "llm"]`. -/
inductive ProviderKind
  | ocr
  | vision
  | analysis
  | llm
deriving DecidableEq

/-- `kind in {"analysis", "vision", "ocr"}`. -/
def ProviderKind.analyses : ProviderKind → Bool
  | .ocr => true
  | .vision => true
  | .analysis => true
  | .llm => false

/-- `Literal["text", "image", "pdf", "ocr"]`. -/
inductive ProviderCapability
  | text
  | image
  | pdf
  | ocr
deriving DecidableEq

/-- A `ProviderCatalogEntry`. -/
structure ProviderCatalogEntry where
  providerId : Str
  kind : ProviderKind
  protocol : Str
  capabilities : List ProviderCapability
  defaultModelId : Option Str
deriving DecidableEq

namespace ProviderCatalog

/-- An entry for analysis. -/
def analysisEntry (providerId protocol : String) (capabilities : List ProviderCapability)
    (defaultModelId : String) : ProviderCatalogEntry where
  providerId := lit providerId
  kind := .analysis
  protocol := lit protocol
  capabilities := capabilities
  defaultModelId := some (lit defaultModelId)

/-- An entry for text. -/
def llmEntry (providerId protocol : String) (defaultModelId : Option String) :
    ProviderCatalogEntry where
  providerId := lit providerId
  kind := .llm
  protocol := lit protocol
  capabilities := [.text]
  defaultModelId := defaultModelId.map lit

/-- `_CATALOG`. -/
def catalog : List ProviderCatalogEntry :=
  [analysisEntry "upstage-document-parse" "upstage-document-digitization" [.ocr, .pdf]
      "document-parse",
    analysisEntry "openai-vision" "openai-chat-completions" [.image, .pdf] "gpt-4o",
    analysisEntry "anthropic-vision" "anthropic-messages" [.image, .pdf] "claude-3-5-sonnet",
    analysisEntry "gemini-vision" "gemini-generate-content" [.image, .pdf] "gemini-2.0-flash",
    analysisEntry "custom-vision-compatible" "custom-vision-compatible" [.image, .pdf] "vision",
    llmEntry "openai" "openai-responses" (some "gpt-4o-mini"),
    llmEntry "anthropic" "anthropic-messages" (some "claude-3-5-sonnet"),
    llmEntry "gemini" "gemini-generate-content" (some "gemini-2.0-flash"),
    llmEntry "upstage-solar" "openai-chat-completions" (some "solar-pro2"),
    llmEntry "mistral" "openai-chat-completions" (some "mistral-large-latest"),
    llmEntry "groq" "openai-chat-completions" (some "llama-3.3-70b-versatile"),
    llmEntry "deepseek" "openai-chat-completions" (some "deepseek-chat"),
    llmEntry "ollama" "openai-chat-completions" (some "default"),
    llmEntry "vllm" "openai-chat-completions" (some "default"),
    llmEntry "lm-studio" "openai-chat-completions" (some "default"),
    llmEntry "custom-llm-compatible" "custom-llm-compatible" none]

/-- `get_provider_catalog_entry`; `none` is a `ProviderCatalogError`. -/
def entry? (providerId : Str) : Option ProviderCatalogEntry :=
  catalog.find? fun entry => entry.providerId = providerId

end ProviderCatalog

end MediaBridge.Control
