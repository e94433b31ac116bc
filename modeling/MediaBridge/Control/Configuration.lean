import MediaBridge.Control.Accounts
import MediaBridge.Control.ProviderCatalog
import MediaBridge.Control.Schemas
import MediaBridge.Core.ConfigSnapshot
import MediaBridge.Foundation.Rows
import MediaBridge.Foundation.Runs
import MediaBridge.Gateway.LlmBackends

/-!
# The configuration tables

`ConfigurationService` of `media_bridge_control/configuration.py`, with the requests of
`media_bridge_control/schemas.py`: the providers, the routing profiles and the models, and the
operations that create, update and delete them.

## Implementation notes

An operation is one transaction. A text that a pattern has accepted is not empty, so `or` falls back
on a missing text only. A stored time comes back as a `datetime` of the session, or not at all when
it is beyond the years of one. Identifiers, and the bytes for an encryption, are drawn by the
caller. Audit columns are left out.
-/

namespace MediaBridge.Control

open Foundation MediaBridge.Core Gateway

/-- What the service calls. -/
structure ConfigurationContext where
  unicode : UnicodeData
  casefold : Str → Str
  /-- `encrypt_secret`, with what is drawn for it. -/
  encryptSecret : Bytes → Str → Str
  /-- The driver returns a stored time as a `datetime`; otherwise it raises a `DataError`. -/
  readable : Instant → Bool

/-- How an operation fails. Only the first one is a `ConfigurationError`. -/
inductive ConfigurationFailure
  | refused (code : String)
  | integrityError
  | dataError
deriving DecidableEq

/-- `ReasoningEffort`. -/
inductive ReasoningEffort
  | providerDefault
  | none
  | minimal
  | low
  | medium
  | high
  | xhigh
deriving DecidableEq

def ReasoningEffort.value : ReasoningEffort → Str
  | .providerDefault => lit "provider_default"
  | .none => lit "none"
  | .minimal => lit "minimal"
  | .low => lit "low"
  | .medium => lit "medium"
  | .high => lit "high"
  | .xhigh => lit "xhigh"

/-- `^[a-z][a-z0-9-]{0,63}$`. -/
def providerAliasPattern : Str → Bool
  | [] => false
  | c :: rest =>
      c.isAsciiLower && rest.length ≤ 63 && rest.all fun d => registryHeadChar d || d == cp 45

/-- `^[a-z0-9][a-z0-9.-]*$`, of an identifier of the catalog and of a protocol. -/
def catalogPattern : Str → Bool
  | [] => false
  | c :: rest => registryHeadChar c && rest.all fun d =>
      registryHeadChar d || d == cp 46 || d == cp 45

/-- `^[A-Za-z0-9][-A-Za-z0-9._:/]{0,127}$`. -/
def providerModelPattern : Str → Bool :=
  identifierPattern CodePoint.isAsciiAlnum fun c =>
    c.isAsciiAlnum || (lit "-._:/").contains [c]

/-- `\s` of the pattern library. -/
def whiteSpace (c : CodePoint) : Bool := c.isSpace && !(0x1C ≤ c.val && c.val ≤ 0x1F)

/-- `^\S(?:.{0,126}\S)?$`. -/
def titlePattern (s : Str) : Bool :=
  (s.head?.any fun c => !whiteSpace c) && (s.getLast?.any fun c => !whiteSpace c) &&
    s.length ≤ 128 && s.all fun c => c != cp 10

/-- A text without a null character, which the database does not store. -/
def Storable (text : Str) : Prop := cp 0 ∉ text

instance (text : Str) : Decidable (Storable text) := inferInstanceAs (Decidable (_ ∉ text))

section Providers

/-- The fields of a `ProviderCreate`. -/
structure ProviderFields where
  name : Str
  aliasName : Option Str := none
  kind : ProviderKind
  catalogId : Option Str := none
  modelId : Option Str := none
  endpoint : Str
  protocol : Option Str := none
  capabilities : List ProviderCapability := []
  secretRef : SecretReference
  apiKey : Option Str := none
  reasoningEffort : ReasoningEffort := .providerDefault
  enabled : Bool := true
deriving DecidableEq

/-- `StringConstraints(min_length=1, max_length=4_096)`. -/
def ValidApiKey (key : Str) : Prop := Constrained.Valid 4096 anyText key ∧ key ≠ []

instance (key : Str) : Decidable (ValidApiKey key) := inferInstanceAs (Decidable (_ ∧ _))

/-- `ProviderCreate.model_validate` returns. -/
structure ProviderFields.Valid (fields : ProviderFields) : Prop where
  name : Constrained.Valid 128 namePattern fields.name
  aliasName : ∀ text ∈ fields.aliasName, Constrained.Valid 64 providerAliasPattern text
  catalogId : ∀ text ∈ fields.catalogId, Constrained.Valid 128 catalogPattern text
  modelId : ∀ text ∈ fields.modelId, Constrained.Valid 128 providerModelPattern text
  endpoint : Constrained.Valid 2048 httpsPattern fields.endpoint
  protocol : ∀ text ∈ fields.protocol, Constrained.Valid 64 catalogPattern text
  secretRef : fields.secretRef.Valid
  apiKey : ∀ key ∈ fields.apiKey, ValidApiKey key

instance (fields : ProviderFields) : Decidable fields.Valid :=
  decidable_of_iff
    (Constrained.Valid 128 namePattern fields.name ∧
      (∀ text ∈ fields.aliasName, Constrained.Valid 64 providerAliasPattern text) ∧
      (∀ text ∈ fields.catalogId, Constrained.Valid 128 catalogPattern text) ∧
      (∀ text ∈ fields.modelId, Constrained.Valid 128 providerModelPattern text) ∧
      Constrained.Valid 2048 httpsPattern fields.endpoint ∧
      (∀ text ∈ fields.protocol, Constrained.Valid 64 catalogPattern text) ∧
      fields.secretRef.Valid ∧ ∀ key ∈ fields.apiKey, ValidApiKey key)
    ⟨fun ⟨h1, h2, h3, h4, h5, h6, h7, h8⟩ => ⟨h1, h2, h3, h4, h5, h6, h7, h8⟩,
      fun h => ⟨h.1, h.2, h.3, h.4, h.5, h.6, h.7, h.8⟩⟩

/-- A `ProviderCreate`. -/
abbrev ProviderCreate := {fields : ProviderFields // fields.Valid}

/-- The columns that `_provider_values` computes. -/
structure ProviderColumns where
  name : Str
  aliasName : Option Str
  kind : ProviderKind
  catalogId : Option Str
  modelId : Option Str
  endpoint : Str
  protocol : Option Str
  capabilities : List ProviderCapability
  secretRef : SecretReference
  reasoningEffort : Option ReasoningEffort
  enabled : Bool
deriving DecidableEq

/-- A row of `providers`. -/
structure Provider extends ProviderColumns where
  id : Uuid
  encryptedApiKey : Option Str
deriving DecidableEq

/-- The fields of a `ProviderUpdate` that are set. -/
structure ProviderChanges where
  name : Option Str := none
  aliasName : Option Str := none
  kind : Option ProviderKind := none
  catalogId : Option Str := none
  modelId : Option Str := none
  endpoint : Option Str := none
  protocol : Option Str := none
  capabilities : Option (List ProviderCapability) := none
  secretRef : Option SecretReference := none
  apiKey : Option Str := none
  reasoningEffort : Option ReasoningEffort := none
  enabled : Option Bool := none
deriving DecidableEq

/-- `ProviderUpdate.model_validate` returns; a field that is set is not null. -/
structure ProviderChanges.Valid (changes : ProviderChanges) : Prop where
  nonempty : changes ≠ {}
  name : ∀ text ∈ changes.name, Constrained.Valid 128 namePattern text
  aliasName : ∀ text ∈ changes.aliasName, Constrained.Valid 64 providerAliasPattern text
  catalogId : ∀ text ∈ changes.catalogId, Constrained.Valid 128 catalogPattern text
  modelId : ∀ text ∈ changes.modelId, Constrained.Valid 128 providerModelPattern text
  endpoint : ∀ text ∈ changes.endpoint, Constrained.Valid 2048 httpsPattern text
  protocol : ∀ text ∈ changes.protocol, Constrained.Valid 64 catalogPattern text
  secretRef : ∀ ref ∈ changes.secretRef, SecretReference.Valid ref
  apiKey : ∀ key ∈ changes.apiKey, ValidApiKey key

/-- A `ProviderUpdate`. -/
abbrev ProviderUpdate := {changes : ProviderChanges // changes.Valid}

/-- What `update_provider` validates. -/
def ProviderChanges.candidate (changes : ProviderChanges) (row : Provider) : ProviderFields where
  name := changes.name.getD row.name
  aliasName := changes.aliasName.or row.aliasName
  kind := changes.kind.getD row.kind
  catalogId := changes.catalogId.or row.catalogId
  modelId := changes.modelId.or row.modelId
  endpoint := changes.endpoint.getD row.endpoint
  protocol := changes.protocol.or row.protocol
  capabilities := changes.capabilities.getD row.capabilities
  secretRef := changes.secretRef.getD row.secretRef
  apiKey := changes.apiKey
  reasoningEffort := changes.reasoningEffort.getD (row.reasoningEffort.getD .providerDefault)
  enabled := changes.enabled.getD row.enabled

/-- `re.sub(r"[^a-z0-9]+", "-", s)`; `inRun` says that a run has been replaced. -/
def dashRuns : Bool → Str → Str
  | _, [] => []
  | inRun, c :: rest =>
      if registryHeadChar c then c :: dashRuns false rest
      else if inRun then dashRuns true rest
      else cp 45 :: dashRuns true rest

/-- `s.strip("-")`. -/
def stripDashes (s : Str) : Str :=
  (s.dropWhile fun c => c = cp 45).rdropWhile fun c => c = cp 45

/-- `_provider_alias`. -/
def providerAlias (U : UnicodeData) (value : Str) : Str :=
  let slug := stripDashes (dashRuns false (U.lower value))
  (if slug.isEmpty then lit "provider" else slug).take 64

/-- `sorted(capabilities)`, of a set. -/
def sortedCapabilities (capabilities : List ProviderCapability) : List ProviderCapability :=
  [.image, .ocr, .pdf, .text].filter fun c => c ∈ capabilities

/-- `None if effort == "provider_default" else effort`. -/
def storedEffort (effort : ReasoningEffort) : Option ReasoningEffort :=
  if effort = .providerDefault then none else some effort

/-- The reference of a key that is stored in the database. -/
def databaseReference : SecretReference := ⟨.db, lit "provider_api_key"⟩

/-- An effort of a provider is verified for its catalog entry, protocol and model. -/
def effortSupported (C : ConfigurationContext) (kind : ProviderKind)
    (catalogId protocol modelId : Option Str) (effort : ReasoningEffort) : Bool :=
  decide (kind = .llm) &&
    (LlmBackends.reasoningCapability C.casefold (catalogId.getD []) (protocol.getD [])
      (modelId.getD [])).any fun capability => effort.value ∈ capability.efforts

/-- `kind in {expected_kind, entry.kind}`. -/
def entryAccepts (entry : ProviderCatalogEntry) (kind : ProviderKind) : Bool :=
  let expectedKind := if entry.kind = .llm then ProviderKind.llm else .analysis
  kind = expectedKind || kind = entry.kind

/-- The protocol, the capabilities and the model that a request has with its catalog entry; the
text is the code of a `ConfigurationError`. -/
def catalogDefaults (request : ProviderFields) :
    Except String (Option Str × List ProviderCapability × Option Str) :=
  match request.catalogId with
  | none => .ok (request.protocol, request.capabilities, request.modelId)
  | some catalogId =>
      match ProviderCatalog.entry? catalogId with
      | none => .error "provider_catalog_entry_unknown"
      | some entry =>
          if ¬ entryAccepts entry request.kind then .error "provider_catalog_kind_mismatch"
          else .ok (request.protocol.or (some entry.protocol),
            if request.capabilities.isEmpty then entry.capabilities else request.capabilities,
            request.modelId.or entry.defaultModelId)

/-- `_provider_values`; the text is the code of a `ConfigurationError`. -/
def providerValues (C : ConfigurationContext) (request : ProviderFields) :
    Except String ProviderColumns :=
  match catalogDefaults request with
  | .error code => .error code
  | .ok (protocol, capabilities, effectiveModelId) =>
      if request.reasoningEffort ≠ .providerDefault ∧ ¬ effortSupported C request.kind
          request.catalogId protocol effectiveModelId request.reasoningEffort then
        .error "reasoning_effort_unsupported"
      else .ok {
        name := request.name
        aliasName := some (request.aliasName.getD
          (providerAlias C.unicode (request.catalogId.getD request.name)))
        kind := request.kind
        catalogId := request.catalogId
        modelId := request.modelId
        endpoint := request.endpoint
        protocol := protocol
        capabilities := sortedCapabilities capabilities
        secretRef := if request.apiKey.isSome then databaseReference else request.secretRef
        reasoningEffort := storedEffort request.reasoningEffort
        enabled := request.enabled }

end Providers

section Profiles

/-- `Literal["priority", "fallback", "health", "cost"]`. -/
inductive RoutingStrategy
  | priority
  | fallback
  | health
  | cost
deriving DecidableEq

/-- The fields of a `RoutingProfileCreate`. -/
structure ProfileFields where
  name : Str
  analysisProviderIds : List Uuid
  llmProviderIds : List Uuid
  strategy : RoutingStrategy := .priority
  enabled : Bool := true
deriving DecidableEq

/-- One to 32 identifiers, no two alike. -/
def ValidIds (ids : List Uuid) : Prop := ids ≠ [] ∧ ids.length ≤ 32 ∧ ids.Nodup

instance (ids : List Uuid) : Decidable (ValidIds ids) := inferInstanceAs (Decidable (_ ∧ _ ∧ _))

/-- `RoutingProfileCreate.model_validate` returns. -/
structure ProfileFields.Valid (fields : ProfileFields) : Prop where
  name : Constrained.Valid 128 titlePattern fields.name
  analysis : ValidIds fields.analysisProviderIds
  llm : ValidIds fields.llmProviderIds

instance (fields : ProfileFields) : Decidable fields.Valid :=
  decidable_of_iff (Constrained.Valid 128 titlePattern fields.name ∧
      ValidIds fields.analysisProviderIds ∧ ValidIds fields.llmProviderIds)
    ⟨fun ⟨h1, h2, h3⟩ => ⟨h1, h2, h3⟩, fun h => ⟨h.1, h.2, h.3⟩⟩

/-- A `RoutingProfileCreate`. -/
abbrev ProfileCreate := {fields : ProfileFields // fields.Valid}

/-- A row of `routing_profiles`. -/
structure RoutingProfile extends ProfileFields where
  id : Uuid
deriving DecidableEq

/-- The fields of a `RoutingProfileUpdate` that are set. -/
structure ProfileChanges where
  name : Option Str := none
  analysisProviderIds : Option (List Uuid) := none
  llmProviderIds : Option (List Uuid) := none
  strategy : Option RoutingStrategy := none
  enabled : Option Bool := none
deriving DecidableEq

/-- `RoutingProfileUpdate.model_validate` returns. -/
structure ProfileChanges.Valid (changes : ProfileChanges) : Prop where
  nonempty : changes ≠ {}
  name : ∀ text ∈ changes.name, Constrained.Valid 128 titlePattern text
  analysis : ∀ ids ∈ changes.analysisProviderIds, ValidIds ids
  llm : ∀ ids ∈ changes.llmProviderIds, ValidIds ids

/-- A `RoutingProfileUpdate`. -/
abbrev ProfileUpdate := {changes : ProfileChanges // changes.Valid}

/-- What `update_routing_profile` validates. -/
def ProfileChanges.candidate (changes : ProfileChanges) (row : RoutingProfile) :
    ProfileFields where
  name := changes.name.getD row.name
  analysisProviderIds := changes.analysisProviderIds.getD row.analysisProviderIds
  llmProviderIds := changes.llmProviderIds.getD row.llmProviderIds
  strategy := changes.strategy.getD row.strategy
  enabled := changes.enabled.getD row.enabled

end Profiles

section Models

/-- `Literal["text", "image", "pdf"]`. -/
inductive InputModality
  | text
  | image
  | pdf
deriving DecidableEq

/-- `Literal["provider_default", "low", "medium", "high"]`. -/
inductive ModelEffort
  | providerDefault
  | low
  | medium
  | high
deriving DecidableEq

/-- The fields of a `ModelCapabilityCreate`. -/
structure ModelFields where
  routingProfileId : Option Uuid := none
  providerId : Option Uuid := none
  modelId : Str
  aliases : List Str := []
  inputModalities : List InputModality
  evidence : Option Str := none
  reviewedAt : Datetime
  expiresAt : Option Datetime := none
  pdfPassthroughVerified : Bool := false
  reasoningEffort : ModelEffort := .providerDefault
deriving DecidableEq

/-- At most 32 texts. -/
def ValidAliases (aliases : List Str) : Prop :=
  aliases.length ≤ 32 ∧ ∀ text ∈ aliases, Str.encodable text = true

instance (aliases : List Str) : Decidable (ValidAliases aliases) :=
  inferInstanceAs (Decidable (_ ∧ _))

/-- `StringConstraints(min_length=1, max_length=1_024)`. -/
def ValidEvidence (text : Str) : Prop := Constrained.Valid 1024 anyText text ∧ text ≠ []

instance (text : Str) : Decidable (ValidEvidence text) := inferInstanceAs (Decidable (_ ∧ _))

/-- `ModelCapabilityCreate.model_validate` returns. -/
structure ModelFields.Valid (fields : ModelFields) : Prop where
  modelId : Constrained.Valid 128 registryIdPattern fields.modelId
  aliases : ValidAliases fields.aliases
  modalities : fields.inputModalities ≠ []
  evidence : ∀ text ∈ fields.evidence, ValidEvidence text
  reviewed : fields.reviewedAt.aware = true
  expires : ∀ d ∈ fields.expiresAt, d.aware = true ∧ fields.reviewedAt.instant < d.instant
  pdf : fields.pdfPassthroughVerified = true → .pdf ∈ fields.inputModalities

instance (fields : ModelFields) : Decidable fields.Valid :=
  decidable_of_iff (Constrained.Valid 128 registryIdPattern fields.modelId ∧
      ValidAliases fields.aliases ∧ fields.inputModalities ≠ [] ∧
      (∀ text ∈ fields.evidence, ValidEvidence text) ∧ fields.reviewedAt.aware = true ∧
      (∀ d ∈ fields.expiresAt, d.aware = true ∧ fields.reviewedAt.instant < d.instant) ∧
      (fields.pdfPassthroughVerified = true → .pdf ∈ fields.inputModalities))
    ⟨fun ⟨h1, h2, h3, h4, h5, h6, h7⟩ => ⟨h1, h2, h3, h4, h5, h6, h7⟩,
      fun h => ⟨h.1, h.2, h.3, h.4, h.5, h.6, h.7⟩⟩

/-- A `ModelCapabilityCreate`. -/
abbrev ModelCreate := {fields : ModelFields // fields.Valid}

/-- A row of `model_capabilities`. -/
structure ModelCapability where
  id : Uuid
  providerId : Option Uuid
  routingProfileId : Option Uuid
  modelId : Str
  aliases : List Str
  inputModalities : List InputModality
  evidence : Option Str
  reviewedAt : Instant
  expiresAt : Option Instant
  pdfPassthroughVerified : Bool
  reasoningEffort : Option ModelEffort
deriving DecidableEq

/-- The fields of a `ModelCapabilityUpdate` that are set. -/
structure ModelChanges where
  routingProfileId : Option Uuid := none
  providerId : Option Uuid := none
  modelId : Option Str := none
  aliases : Option (List Str) := none
  inputModalities : Option (List InputModality) := none
  evidence : Option Str := none
  reviewedAt : Option Datetime := none
  expiresAt : Option Datetime := none
  pdfPassthroughVerified : Option Bool := none
  reasoningEffort : Option ModelEffort := none
deriving DecidableEq

/-- `ModelCapabilityUpdate.model_validate` returns. -/
structure ModelChanges.Valid (changes : ModelChanges) : Prop where
  nonempty : changes ≠ {}
  modelId : ∀ text ∈ changes.modelId, Constrained.Valid 128 registryIdPattern text
  aliases : ∀ texts ∈ changes.aliases, ValidAliases texts
  modalities : ∀ modalities ∈ changes.inputModalities, modalities ≠ []
  evidence : ∀ text ∈ changes.evidence, ValidEvidence text
  reviewed : ∀ d ∈ changes.reviewedAt, Datetime.aware d = true
  expires : ∀ d ∈ changes.expiresAt, Datetime.aware d = true

/-- A `ModelCapabilityUpdate`. -/
abbrev ModelUpdate := {changes : ModelChanges // changes.Valid}

/-- A stored time, as it comes back; its offset is not looked at. -/
def storedDatetime (instant : Instant) : Datetime := ⟨instant, some 0⟩

/-- What `update_model` validates. -/
def ModelChanges.candidate (changes : ModelChanges) (row : ModelCapability) : ModelFields where
  routingProfileId := changes.routingProfileId.or row.routingProfileId
  providerId := changes.providerId.or row.providerId
  modelId := changes.modelId.getD row.modelId
  aliases := changes.aliases.getD row.aliases
  inputModalities := changes.inputModalities.getD row.inputModalities
  evidence := changes.evidence.or row.evidence
  reviewedAt := changes.reviewedAt.getD (storedDatetime row.reviewedAt)
  expiresAt := changes.expiresAt.or (row.expiresAt.map storedDatetime)
  pdfPassthroughVerified := changes.pdfPassthroughVerified.getD row.pdfPassthroughVerified
  reasoningEffort := changes.reasoningEffort.getD (row.reasoningEffort.getD .providerDefault)

/-- `sorted(texts)`. -/
def sortedTexts (texts : List Str) : List Str := texts.insertionSort fun a b => a ≤ b

/-- `sorted(modalities)`, of a set. -/
def sortedModalities (modalities : List InputModality) : List InputModality :=
  [.image, .pdf, .text].filter fun m => m ∈ modalities

/-- `None if effort == "provider_default" else effort`. -/
def storedModelEffort (effort : ModelEffort) : Option ModelEffort :=
  if effort = .providerDefault then none else some effort

/-- The driver can read the row. -/
def ModelCapability.readable (C : ConfigurationContext) (row : ModelCapability) : Bool :=
  C.readable row.reviewedAt && row.expiresAt.all C.readable

/-- The columns can hold the row. -/
structure ModelCapability.Storable (row : ModelCapability) : Prop where
  modelId : row.modelId.length ≤ 128
  aliases : ∀ text ∈ row.aliases, Control.Storable text
  evidence : ∀ text ∈ row.evidence, Control.Storable text

instance (row : ModelCapability) : Decidable row.Storable :=
  decidable_of_iff (row.modelId.length ≤ 128 ∧ (∀ text ∈ row.aliases, Storable text) ∧
      ∀ text ∈ row.evidence, Storable text)
    ⟨fun ⟨h1, h2, h3⟩ => ⟨h1, h2, h3⟩, fun h => ⟨h.1, h.2, h.3⟩⟩

end Models

end MediaBridge.Control
